import CloudVM.Metering.Meter
import CloudVM.Vm.Handover
import Mathlib.Order.Interval.Finset.Nat

/-!
# Billed time and running time

A history of status messages is applied to the row of one VM by the subscriber of the VM service.
All that is left of it are the status and one `stoppedAt`. What is billed for the VM is at most
the time it ran exactly if, within the window, it runs without a break until it is stopped for good.
-/

namespace CloudVM.Metering

open UserService Plane VmService Doubles

section Subscriber

/-- How the database answers the subscriber about one row at a time. -/
def rowAnswer (now : Nat) : (c : VmCall) → VmRow → c.Answer × VmRow
  | .now, r => (now, r)
  | .markDeleted vmId, r =>
      (.ok (if r.id = vmId then 1 else 0), rowUpdate now (.markDeleted vmId) r)
  | .stampStopped vmId, r =>
      (.ok (if r.id = vmId ∧ r.stoppedAt = none then 1 else 0), rowUpdate now (.stampStopped vmId) r)
  | .patchStatus vmId p, r =>
      (.ok (if r.id = vmId then 1 else 0), rowUpdate now (.patchStatus vmId p) r)
  | c, r => (noAnswer c, r)

def received (now : Nat) (m : StatusUpdate) (r : VmRow) : VmRow :=
  ((onStatusUpdate m).exec (rowAnswer now) r).2

variable {now : Nat} {m : StatusUpdate} {r : VmRow}

theorem received_lcm {s : LcmStatus} (h : m.status = .lcm s) : received now m r = r := by
  simp [received, onStatusUpdate, h]

/-- The subscriber deletes as the worker's `delete_vm_record` does. -/
theorem received_deleted (h : m.status = .row .deleted) :
    received now m r = rowUpdate now (.deleteVmRecord m.vmId) r := by
  by_cases hid : r.id = m.vmId
  · cases hs : r.stoppedAt with
    | none => simp [received, onStatusUpdate, h, rowAnswer, rowUpdate, hid, hs]
    | some s => simp [received, onStatusUpdate, h, rowAnswer, rowUpdate, hid, hs]
  · simp [received, onStatusUpdate, h, rowAnswer, rowUpdate, hid]

theorem received_row {s : VmStatus} (h : m.status = .row s) (hs : s ≠ .deleted) :
    received now m r = rowUpdate now (.patchStatus m.vmId (statusPatch m s now)) r := by
  cases s <;> first | exact absurd rfl hs | simp [received, onStatusUpdate, h, rowAnswer]

theorem received_other (h : r.id ≠ m.vmId) : received now m r = r := by
  cases hm : m.status with
  | lcm s => exact received_lcm hm
  | row s =>
    by_cases hs : s = .deleted
    · subst hs
      rw [received_deleted hm]
      exact if_neg h
    · rw [received_row hm hs]
      exact if_neg h

theorem received_id : (received now m r).id = r.id := by
  cases hm : m.status with
  | lcm s => rw [received_lcm hm]
  | row s =>
    by_cases hs : s = .deleted
    · subst hs
      rw [received_deleted hm, rowUpdate_id]
    · rw [received_row hm hs, rowUpdate_id]

def statusFor (vmId : String) (m : StatusUpdate) : Option VmStatus :=
  match m.status with
  | .row s => if m.vmId = vmId then some s else none
  | .lcm _ => none

/-- The recorded stop once a message has given a status. -/
def stopAfter (now : Nat) (s : VmStatus) (stoppedAt : Option Nat) : Option Nat :=
  match s with
  | .running => none
  | .stopped | .suspended | .error => some now
  | .deleted => stoppedAt <|> some now
  | .pending => stoppedAt

private theorem received_eq (now : Nat) (m : StatusUpdate) (r : VmRow) :
    (received now m r).createdAt = r.createdAt ∧
    (received now m r).status = (statusFor r.id m).getD r.status ∧
    (received now m r).stoppedAt =
      ((statusFor r.id m).map fun s => stopAfter now s r.stoppedAt).getD r.stoppedAt := by
  by_cases hid : r.id = m.vmId
  · cases hm : m.status with
    | lcm s => simp [received_lcm hm, statusFor, hm]
    | row status =>
      have hfor : statusFor r.id m = some status := by simp [statusFor, hm, hid]
      rw [hfor]
      by_cases hd : status = .deleted
      · subst hd
        simp [received_deleted hm, rowUpdate, hid, stopAfter]
      · rw [received_row hm hd]
        cases status <;> simp [rowUpdate, hid, StatusPatch.apply, statusPatch, stopAfter] at hd ⊢
  · have hfor : statusFor r.id m = none := by
      unfold statusFor
      split
      · exact if_neg fun h => hid h.symm
      · rfl
    simp [received_other hid, hfor]

/-- A message has no effect on the status and `stoppedAt` of a row, or it does one of three
things: run, stop at this moment, or keep the stop that is recorded. -/
private theorem received_cases (now : Nat) (m : StatusUpdate) (r : VmRow) :
    (received now m r).status = r.status ∧ (received now m r).stoppedAt = r.stoppedAt ∨
      (received now m r).status = .running ∧ (received now m r).stoppedAt = none ∨
      (received now m r).status ≠ .running ∧ (received now m r).stoppedAt = some now ∨
      (received now m r).status ≠ .running ∧ (received now m r).stoppedAt = r.stoppedAt := by
  obtain ⟨-, hstatus, hstopped⟩ := received_eq now m r
  rw [hstatus, hstopped]
  cases statusFor r.id m with
  | none => simp
  | some s => cases s <;> cases r.stoppedAt <;> simp [stopAfter]

end Subscriber

section History

/-- Messages with the times at which they are applied, oldest first. -/
abbrev History := List (Nat × StatusUpdate)

def rowAfter (vm : VmRow) (history : History) : VmRow :=
  history.foldl (fun r e => received e.1 e.2 r) vm

/-- The row at a time: every message up to then is applied. -/
def rowAt (vm : VmRow) (history : History) (t : Nat) : VmRow :=
  rowAfter vm (history.filter fun e => e.1 ≤ t)

/-- The milliseconds of the window in which the row said `RUNNING`. -/
def runningTime (vm : VmRow) (history : History) (cycleStart cycleEnd : Nat) : Nat :=
  ((Finset.Ico cycleStart cycleEnd).filter fun t =>
    vm.createdAt ≤ t ∧ (rowAt vm history t).status = .running).card

/-- Times increase from the creation of the VM on. -/
def Increasing (vm : VmRow) (history : History) : Prop :=
  (vm.createdAt :: history.map Prod.fst).Pairwise (· < ·)

/-- The statuses that the messages give to a VM, oldest first. -/
def told (vmId : String) (history : History) : List VmStatus :=
  history.filterMap fun e => statusFor vmId e.2

/-- A stop has come, and `RUNNING` has not come since. -/
def Stopped (statuses : List VmStatus) : Prop :=
  ∃ before s after, statuses = before ++ s :: after ∧
    (s = .stopped ∨ s = .suspended ∨ s = .error ∨ s = .deleted) ∧ .running ∉ after

/-- Some of the window lies between the last of the messages `before` (or the creation) and the
first of the messages `after`. -/
def Stretches (createdAt : Nat) (before after : History) (cycleStart cycleEnd : Nat) : Prop :=
  max cycleStart ((before.getLast?.map Prod.fst).getD createdAt) <
    min cycleEnd ((after.head?.map Prod.fst).getD cycleEnd)

instance (createdAt : Nat) (before after : History) (cycleStart cycleEnd : Nat) :
    Decidable (Stretches createdAt before after cycleStart cycleEnd) :=
  inferInstanceAs (Decidable (max cycleStart _ < min cycleEnd _))

/-- Wherever the window finds the VM between two messages, `RUNNING` came last, or the VM has been
stopped for good: it is not started, stopped, suspended or failed once more. -/
def StopsForGood (vm : VmRow) (history : History) (cycleStart cycleEnd : Nat) : Prop :=
  ∀ before after, history = before ++ after →
    Stretches vm.createdAt before after cycleStart cycleEnd →
    (told vm.id before).getLast? = some .running ∨
      Stopped (told vm.id before) ∧ ∀ s ∈ told vm.id after, s = .pending ∨ s = .deleted

/-- At every moment of the window since its creation, and before the stop that its row records
in the end, the machine ran. -/
private def Unbroken (vm : VmRow) (history : History) (cycleStart cycleEnd : Nat) : Prop :=
  ∀ t, vm.createdAt ≤ t → cycleStart ≤ t → t < cycleEnd →
    ((rowAfter vm history).status ≠ .running →
      ∀ s, (rowAfter vm history).stoppedAt = some s → t < s) →
    (rowAt vm history t).status = .running

variable {vm : VmRow} {history : History} {cycleStart cycleEnd : Nat}

private theorem rowAfter_snoc (vm : VmRow) (history : History) (e : Nat × StatusUpdate) :
    rowAfter vm (history ++ [e]) = received e.1 e.2 (rowAfter vm history) := by
  simp [rowAfter]

private theorem rowAfter_createdAt (vm : VmRow) (history : History) :
    (rowAfter vm history).createdAt = vm.createdAt := by
  induction history using List.reverseRecOn with
  | nil => rfl
  | append_singleton history e ih => rw [rowAfter_snoc, (received_eq _ _ _).1, ih]

private theorem rowAt_snoc {e : Nat × StatusUpdate} (h : ∀ e' ∈ history, e'.1 < e.1) (t : Nat) :
    rowAt vm (history ++ [e]) t =
      if e.1 ≤ t then rowAfter vm (history ++ [e]) else rowAt vm history t := by
  unfold rowAt
  rw [List.filter_append]
  split
  · rename_i ht
    have hall : history.filter (fun e' => e'.1 ≤ t) = history := by
      apply List.filter_eq_self.mpr
      intro e' he'
      have hlt := h e' he'
      simp only [decide_eq_true_eq]
      omega
    simp [hall, ht]
  · rename_i ht
    simp [ht]

private theorem running_unstopped (hnew : vm.stoppedAt = none)
    (hrun : (rowAfter vm history).status = .running) : (rowAfter vm history).stoppedAt = none := by
  induction history using List.reverseRecOn with
  | nil => exact hnew
  | append_singleton history e ih =>
    rw [rowAfter_snoc] at hrun ⊢
    rcases received_cases e.1 e.2 (rowAfter vm history) with ⟨hst, hs⟩ | ⟨-, hs⟩ | ⟨hne, -⟩ |
      ⟨hne, -⟩
    · rw [hs]
      exact ih (hst.symm.trans hrun)
    · exact hs
    · exact absurd hrun hne
    · exact absurd hrun hne

private theorem not_running_after_stop (hnew : vm.stoppedAt = none)
    (htimes : (history.map Prod.fst).Pairwise (· < ·)) {s : Nat}
    (hs : (rowAfter vm history).stoppedAt = some s) :
    ∀ t, s ≤ t → (rowAt vm history t).status ≠ .running := by
  induction history using List.reverseRecOn generalizing s with
  | nil => simp [rowAfter, hnew] at hs
  | append_singleton history e ih =>
    have hne : (rowAfter vm (history ++ [e])).status ≠ .running := by
      intro hrun
      rw [running_unstopped hnew hrun] at hs
      cases hs
    rw [List.map_append, List.pairwise_append] at htimes
    have hlast : ∀ e' ∈ history, e'.1 < e.1 := by
      intro e' he'
      exact htimes.2.2 e'.1 (List.mem_map_of_mem he') e.1 (by simp)
    intro t hst
    rw [rowAt_snoc hlast]
    by_cases ht : e.1 ≤ t
    · rw [if_pos ht]
      exact hne
    · rw [if_neg ht]
      rw [rowAfter_snoc] at hs
      rcases received_cases e.1 e.2 (rowAfter vm history) with ⟨-, hs'⟩ | ⟨-, hs'⟩ | ⟨-, hs'⟩ |
        ⟨-, hs'⟩
      · rw [hs'] at hs
        exact ih htimes.1 hs t hst
      · rw [hs'] at hs
        cases hs
      · rw [hs'] at hs
        cases hs
        exact absurd hst ht
      · rw [hs'] at hs
        exact ih htimes.1 hs t hst

/-- The moments before the end that is counted are those before the window's end and before a
recorded stop. -/
private theorem lt_ended_iff (r : VmRow) (t : Nat) :
    t < ended (metered r) cycleEnd ↔
      t < cycleEnd ∧ (r.status ≠ .running → ∀ s, r.stoppedAt = some s → t < s) := by
  rw [ended_eq]
  by_cases hrun : r.status = .running
  · simp [metered, hrun]
  · cases hs : r.stoppedAt with
    | none => simp [metered, hrun, hs]
    | some s => simp [metered, hrun, hs, and_comm]

/-- What counts is at most the running time exactly if all of it is running time. -/
private theorem counted_le_iff (hnew : vm.stoppedAt = none)
    (htimes : (history.map Prod.fst).Pairwise (· < ·)) :
    counted (metered (rowAfter vm history)) cycleStart cycleEnd ≤
        runningTime vm history cycleStart cycleEnd ↔
      Unbroken vm history cycleStart cycleEnd := by
  have hmem : ∀ t, t ∈ Finset.Ico (started (metered (rowAfter vm history)) cycleStart)
      (ended (metered (rowAfter vm history)) cycleEnd) ↔
      vm.createdAt ≤ t ∧ cycleStart ≤ t ∧ t < cycleEnd ∧
        ((rowAfter vm history).status ≠ .running →
          ∀ s, (rowAfter vm history).stoppedAt = some s → t < s) := by
    intro t
    rw [Finset.mem_Ico, lt_ended_iff, started_eq, max_le_iff]
    simp only [metered, rowAfter_createdAt, and_assoc]
  -- all running time lies within what is counted
  have hrunning : (Finset.Ico cycleStart cycleEnd).filter (fun t =>
        vm.createdAt ≤ t ∧ (rowAt vm history t).status = .running) =
      (Finset.Ico (started (metered (rowAfter vm history)) cycleStart)
        (ended (metered (rowAfter vm history)) cycleEnd)).filter
          fun t => (rowAt vm history t).status = .running := by
    ext t
    rw [Finset.mem_filter, Finset.mem_filter, hmem, Finset.mem_Ico]
    constructor
    · rintro ⟨⟨hstart, hend⟩, hcreated, hrun⟩
      refine ⟨⟨hcreated, hstart, hend, fun _ s hs => ?_⟩, hrun⟩
      by_contra hlt
      exact not_running_after_stop hnew htimes hs t (by omega) hrun
    · rintro ⟨⟨hcreated, hstart, hend, -⟩, hrun⟩
      exact ⟨⟨hstart, hend⟩, hcreated, hrun⟩
  rw [runningTime, hrunning, counted, ← Nat.card_Ico]
  constructor
  · intro hle t hcreated hstart hend hstop
    have heq := le_antisymm (Finset.card_filter_le _ _) hle
    have hall := Finset.card_filter_eq_iff.mp heq
    exact hall t ((hmem t).mpr ⟨hcreated, hstart, hend, hstop⟩)
  · intro h
    rw [Finset.filter_true_of_mem]
    intro t ht
    obtain ⟨hcreated, hstart, hend, hstop⟩ := (hmem t).mp ht
    exact h t hcreated hstart hend hstop

end History

section Settled

variable {vm r : VmRow} {history before after : History} {t : Nat}

private theorem rowAfter_append (vm : VmRow) (before after : History) :
    rowAfter vm (before ++ after) = rowAfter (rowAfter vm before) after := by
  simp [rowAfter]

private theorem rowAfter_id (vm : VmRow) (history : History) : (rowAfter vm history).id = vm.id := by
  induction history using List.reverseRecOn with
  | nil => rfl
  | append_singleton history e ih => rw [rowAfter_snoc, received_id, ih]

private theorem told_append (vmId : String) (before after : History) :
    told vmId (before ++ after) = told vmId before ++ told vmId after := List.filterMap_append

private theorem told_single (vmId : String) (e : Nat × StatusUpdate) :
    told vmId [e] = (statusFor vmId e.2).toList := by
  cases h : statusFor vmId e.2 <;> simp [told, h]

private theorem rowAfter_status (vm : VmRow) (history : History) :
    (rowAfter vm history).status = ((told vm.id history).getLast?).getD vm.status := by
  induction history using List.reverseRecOn with
  | nil => rfl
  | append_singleton history e ih =>
    rw [rowAfter_snoc, (received_eq _ _ _).2.1, rowAfter_id, ih, told_append, told_single]
    cases statusFor vm.id e.2 <;> simp

private theorem stopped_snoc {ss : List VmStatus} {s : VmStatus} :
    Stopped (ss ++ [s]) ↔
      (s = .stopped ∨ s = .suspended ∨ s = .error ∨ s = .deleted) ∨ s ≠ .running ∧ Stopped ss := by
  constructor
  · rintro ⟨before, stop, after, heq, hstop, hafter⟩
    rcases List.eq_nil_or_concat after with rfl | ⟨after, last, rfl⟩
    · obtain ⟨-, rfl⟩ := List.append_singleton_inj.mp heq
      exact .inl hstop
    · have hsplit : ss ++ [s] = (before ++ stop :: after) ++ [last] := by simpa using heq
      obtain ⟨rfl, rfl⟩ := List.append_singleton_inj.mp hsplit
      rw [List.concat_eq_append, List.mem_append, not_or] at hafter
      refine .inr ⟨?_, before, stop, after, rfl, hstop, hafter.1⟩
      rintro rfl
      exact hafter.2 (List.mem_singleton.mpr rfl)
  · rintro (hstop | ⟨hne, before, stop, after, rfl, hstop, hafter⟩)
    · exact ⟨ss, s, [], rfl, hstop, List.not_mem_nil⟩
    · refine ⟨before, stop, after ++ [s], by simp, hstop, ?_⟩
      simp [hafter, hne.symm]

private theorem rowAfter_stopped (hnew : vm.stoppedAt = none) (history : History) :
    (rowAfter vm history).stoppedAt ≠ none ↔ Stopped (told vm.id history) := by
  induction history using List.reverseRecOn with
  | nil =>
    refine iff_of_false (not_not.mpr hnew) ?_
    rintro ⟨before, s, after, heq, -⟩
    simp [told] at heq
  | append_singleton history e ih =>
    rw [rowAfter_snoc, (received_eq _ _ _).2.2, rowAfter_id, told_append, told_single]
    cases statusFor vm.id e.2 with
    | none => simpa using ih
    | some s =>
      simp only [Option.map_some, Option.getD_some, Option.toList_some]
      rw [stopped_snoc, ← ih]
      cases s <;> cases (rowAfter vm history).stoppedAt <;> simp [stopAfter]

private theorem rowAfter_stop_le (hnew : vm.stoppedAt = none) (hle : ∀ e ∈ history, e.1 ≤ t)
    {s : Nat} (hs : (rowAfter vm history).stoppedAt = some s) : s ≤ t := by
  induction history using List.reverseRecOn with
  | nil => simp [rowAfter, hnew] at hs
  | append_singleton history e ih =>
    have hbefore := ih fun e' he' => hle e' (List.mem_append_left _ he')
    have hlast := hle e (by simp)
    rw [rowAfter_snoc] at hs
    rcases received_cases e.1 e.2 (rowAfter vm history) with ⟨-, hs'⟩ | ⟨-, hs'⟩ | ⟨-, hs'⟩ | ⟨-, hs'⟩
    · exact hbefore (hs'.symm.trans hs)
    · simp [hs'] at hs
    · obtain rfl : e.1 = s := by simpa [hs'] using hs
      exact hlast
    · exact hbefore (hs'.symm.trans hs)

private theorem rowAfter_stop_iff (hlater : ∀ e ∈ after, t < e.1) {s : Nat} (hst : s ≤ t) :
    (rowAfter r after).stoppedAt = some s ↔
      r.stoppedAt = some s ∧ ∀ x ∈ told r.id after, x = .pending ∨ x = .deleted := by
  induction after using List.reverseRecOn with
  | nil => simp [rowAfter, told]
  | append_singleton after e ih =>
    have hbefore := ih fun e' he' => hlater e' (List.mem_append_left _ he')
    have hlast : e.1 ≠ s := by
      have hlt := hlater e (by simp)
      omega
    rw [rowAfter_snoc, (received_eq _ _ _).2.2, rowAfter_id, told_append, told_single]
    cases statusFor r.id e.2 with
    | none => simpa using hbefore
    | some x =>
      simp only [Option.map_some, Option.getD_some, Option.toList_some, List.forall_mem_append,
        List.forall_mem_singleton, ← and_assoc, ← hbefore]
      cases x <;> cases (rowAfter r after).stoppedAt <;> simp [stopAfter, hlast]

private theorem rowAt_split (hbefore : ∀ e ∈ before, e.1 ≤ t) (hafter : ∀ e ∈ after, t < e.1) :
    rowAt vm (before ++ after) t = rowAfter vm before := by
  have hall : before.filter (fun e => e.1 ≤ t) = before := by
    apply List.filter_eq_self.mpr
    simpa using hbefore
  have hnone : after.filter (fun e => e.1 ≤ t) = [] := by
    apply List.filter_eq_nil_iff.mpr
    intro e he
    have hlt := hafter e he
    simp only [decide_eq_true_eq]
    omega
  rw [rowAt, List.filter_append, hall, hnone, List.append_nil]

/-- The row ends with a stop of the past exactly if the VM, which does not run, has been stopped
for good. -/
private theorem stop_over_iff (hnew : vm.stoppedAt = none) (hbefore : ∀ e ∈ before, e.1 ≤ t)
    (hafter : ∀ e ∈ after, t < e.1) (hrun : (rowAfter vm before).status ≠ .running) :
    ((rowAfter vm (before ++ after)).status ≠ .running ∧
        ∃ s, (rowAfter vm (before ++ after)).stoppedAt = some s ∧ s ≤ t) ↔
      Stopped (told vm.id before) ∧ ∀ s ∈ told vm.id after, s = .pending ∨ s = .deleted := by
  rw [← rowAfter_stopped hnew, rowAfter_append, ← rowAfter_id vm before]
  constructor
  · rintro ⟨-, s, hs, hst⟩
    obtain ⟨hstop, hkept⟩ := (rowAfter_stop_iff hafter hst).mp hs
    refine ⟨?_, hkept⟩
    rw [hstop]
    exact Option.some_ne_none s
  · rintro ⟨hstop, hkept⟩
    obtain ⟨s, hs⟩ := Option.ne_none_iff_exists'.mp hstop
    have hst := rowAfter_stop_le hnew hbefore hs
    refine ⟨?_, s, (rowAfter_stop_iff hafter hst).mpr ⟨hs, hkept⟩, hst⟩
    rw [rowAfter_status]
    cases hlast : (told (rowAfter vm before).id after).getLast? with
    | none => exact hrun
    | some x =>
      rcases hkept x (List.mem_of_getLast? hlast) with rfl | rfl
      · exact nofun
      · exact nofun

/-- A moment that counts is a moment at which the row says `RUNNING`, exactly if `RUNNING` came
last before it or the VM has been stopped for good. -/
private theorem unbroken_at (hnew : vm.stoppedAt = none) (hpending : vm.status ≠ .running)
    (hbefore : ∀ e ∈ before, e.1 ≤ t) (hafter : ∀ e ∈ after, t < e.1) :
    (((rowAfter vm (before ++ after)).status ≠ .running →
        ∀ s, (rowAfter vm (before ++ after)).stoppedAt = some s → t < s) →
      (rowAt vm (before ++ after) t).status = .running) ↔
    ((told vm.id before).getLast? = some .running ∨
      Stopped (told vm.id before) ∧ ∀ s ∈ told vm.id after, s = .pending ∨ s = .deleted) := by
  have hrunning : (rowAfter vm before).status = .running ↔
      (told vm.id before).getLast? = some .running := by
    rw [rowAfter_status]
    cases (told vm.id before).getLast? with
    | none => simpa using hpending
    | some s => simp
  rw [rowAt_split hbefore hafter, ← hrunning]
  by_cases hrun : (rowAfter vm before).status = .running
  · exact iff_of_true (fun _ => hrun) (.inl hrun)
  · rw [← stop_over_iff hnew hbefore hafter hrun]
    constructor
    · intro h
      right
      by_contra hover
      apply hrun
      apply h
      intro hend s hs
      by_contra hst
      exact hover ⟨hend, s, hs, by omega⟩
    · rintro (h | ⟨hend, s, hs, hst⟩)
      · exact fun _ => h
      · intro h
        have hlt := h hend s hs
        omega

private theorem Increasing.split_at (h : Increasing vm history) (t : Nat) :
    ∃ before after, history = before ++ after ∧ (∀ e ∈ before, e.1 ≤ t) ∧ ∀ e ∈ after, t < e.1 := by
  have htimes := (List.pairwise_cons.mp h).2
  clear h
  induction history with
  | nil => exact ⟨[], [], rfl, by simp, by simp⟩
  | cons e history ih =>
    rw [List.map_cons, List.pairwise_cons] at htimes
    by_cases ht : e.1 ≤ t
    · obtain ⟨before, after, rfl, hbefore, hafter⟩ := ih htimes.2
      exact ⟨e :: before, after, rfl, List.forall_mem_cons.mpr ⟨ht, hbefore⟩, hafter⟩
    · refine ⟨[], e :: history, rfl, by simp, List.forall_mem_cons.mpr ⟨by omega, ?_⟩⟩
      intro e' he'
      have hlt := htimes.1 e'.1 (List.mem_map_of_mem he')
      omega

private theorem stretches_iff {cycleStart cycleEnd : Nat} (h : Increasing vm (before ++ after)) :
    Stretches vm.createdAt before after cycleStart cycleEnd ↔
      ∃ t, vm.createdAt ≤ t ∧ cycleStart ≤ t ∧ t < cycleEnd ∧
        (∀ e ∈ before, e.1 ≤ t) ∧ ∀ e ∈ after, t < e.1 := by
  obtain ⟨hcreated, htimes⟩ := List.pairwise_cons.mp h
  rw [List.map_append, List.pairwise_append] at htimes
  have hlast : ∀ t, (before.getLast?.map Prod.fst).getD vm.createdAt ≤ t ↔
      vm.createdAt ≤ t ∧ ∀ e ∈ before, e.1 ≤ t := by
    intro t
    rcases List.eq_nil_or_concat before with rfl | ⟨earlier, last, rfl⟩
    · simp
    · have hcr := hcreated last.1 (by simp)
      have hle : ∀ e ∈ earlier, e.1 < last.1 := by
        have hpair := htimes.1
        rw [List.concat_eq_append, List.map_append, List.pairwise_append] at hpair
        exact fun e he => hpair.2.2 e.1 (List.mem_map_of_mem he) last.1 (by simp)
      simp only [List.concat_eq_append, List.getLast?_concat, Option.map_some, Option.getD_some,
        List.forall_mem_append, List.forall_mem_singleton]
      constructor
      · intro ht
        exact ⟨by omega, fun e he => by have := hle e he; omega, ht⟩
      · exact fun ht => ht.2.2
  have hhead : ∀ t, t < cycleEnd → (t < (after.head?.map Prod.fst).getD cycleEnd ↔
      ∀ e ∈ after, t < e.1) := by
    intro t hend
    cases after with
    | nil => simpa using hend
    | cons first later =>
      have hle : ∀ e ∈ later, first.1 < e.1 := by
        have hpair := List.pairwise_cons.mp htimes.2.1
        exact fun e he => hpair.1 e.1 (List.mem_map_of_mem he)
      simp only [List.head?_cons, Option.map_some, Option.getD_some, List.forall_mem_cons]
      constructor
      · intro ht
        exact ⟨ht, fun e he => ht.trans (hle e he)⟩
      · exact fun ht => ht.1
  constructor
  · intro hstretch
    obtain ⟨hend, hfirst⟩ := lt_min_iff.mp hstretch
    obtain ⟨hcr, hbefore⟩ := (hlast _).mp (le_max_right cycleStart _)
    exact ⟨_, hcr, le_max_left _ _, hend, hbefore, (hhead _ hend).mp hfirst⟩
  · rintro ⟨t, hcr, hstart, hend, hbefore, hafter⟩
    have hmax := max_le hstart ((hlast t).mpr ⟨hcr, hbefore⟩)
    exact hmax.trans_lt (lt_min hend ((hhead t hend).mpr hafter))

private theorem unbroken_iff {cycleStart cycleEnd : Nat} (hnew : vm.stoppedAt = none)
    (hpending : vm.status ≠ .running) (h : Increasing vm history) :
    Unbroken vm history cycleStart cycleEnd ↔ StopsForGood vm history cycleStart cycleEnd := by
  constructor
  · rintro hunbroken before after rfl hstretch
    obtain ⟨t, hcreated, hstart, hend, hbefore, hafter⟩ := (stretches_iff h).mp hstretch
    exact (unbroken_at hnew hpending hbefore hafter).mp (hunbroken t hcreated hstart hend)
  · intro hstops t hcreated hstart hend
    obtain ⟨before, after, rfl, hbefore, hafter⟩ := h.split_at t
    apply (unbroken_at hnew hpending hbefore hafter).mpr
    apply hstops before after rfl
    exact (stretches_iff h).mpr ⟨t, hcreated, hstart, hend, hbefore, hafter⟩

end Settled

/-- For every VM from its creation on, every history of messages and every window: the hours
that count, before rounding, are at most the time in the window during which the row said
`RUNNING` exactly if wherever the window finds the VM it runs or has been stopped for good. The
same is true of the doubles, for windows of up to `2 ^ 52` milliseconds. -/
theorem billed_le_running_iff (tx : CreateVmTx) (newId : String) (createdAt : Nat)
    (history : History) (h : Increasing (newVm tx newId createdAt) history)
    (cycleStart cycleEnd : Nat) :
    (addHours cycleStart cycleEnd 0 (metered (rowAfter (newVm tx newId createdAt) history)) ≤
        (runningTime (newVm tx newId createdAt) history cycleStart cycleEnd : Rat) / millisPerHour ↔
      StopsForGood (newVm tx newId createdAt) history cycleStart cycleEnd) ∧
    (cycleEnd ≤ cycleStart + 2 ^ 52 →
      (totalHoursWith cycleStart cycleEnd double
            [metered (rowAfter (newVm tx newId createdAt) history)] ≤
          double ((runningTime (newVm tx newId createdAt) history cycleStart cycleEnd : Rat) /
            millisPerHour) ↔
        StopsForGood (newVm tx newId createdAt) history cycleStart cycleEnd)) := by
  have hcounted : counted (metered (rowAfter (newVm tx newId createdAt) history)) cycleStart
      cycleEnd ≤ runningTime (newVm tx newId createdAt) history cycleStart cycleEnd ↔
      StopsForGood (newVm tx newId createdAt) history cycleStart cycleEnd := by
    rw [counted_le_iff rfl (List.pairwise_cons.mp h).2]
    exact unbroken_iff rfl nofun h
  constructor
  · rw [addHours_eq, zero_add, div_le_div_iff_of_pos_right millisPerHour_pos, Nat.cast_le]
    exact hcounted
  · intro hwindow
    have hle := counted_le_window (metered (rowAfter (newVm tx newId createdAt) history))
      cycleStart cycleEnd
    rw [totalHoursWith_single, hours,
      nearest_div_le_iff (by norm_num) millisPerHour_pos (by omega)]
    exact hcounted

section Sample

private def news (status : VmStatus) : StatusUpdate := { vmId := "vm1", status := .row status }

private def stoppedForAWeek : History :=
  [(60000, news .running), (3600000, news .stopped), (604800000, news .running)]

private def billedVm : VmRow := newVm meterTx "vm1" 0

private theorem stoppedForAWeek_increasing : Increasing billedVm stoppedForAWeek := by
  simp [Increasing, stoppedForAWeek, billedVm, newVm]

/-- The week in which the machine stood still is billed. -/
theorem stopped_week_is_billed :
    ¬ ∀ (tx : CreateVmTx) (newId : String) (createdAt : Nat) (history : History)
        (cycleStart cycleEnd : Nat), Increasing (newVm tx newId createdAt) history →
        addHours cycleStart cycleEnd 0 (metered (rowAfter (newVm tx newId createdAt) history)) ≤
          (runningTime (newVm tx newId createdAt) history cycleStart cycleEnd : Rat) / millisPerHour := by
  intro h
  have hle := h meterTx "vm1" 0 stoppedForAWeek 0 1209600000 stoppedForAWeek_increasing
  rw [addHours_eq, zero_add, div_le_div_iff_of_pos_right millisPerHour_pos, Nat.cast_le] at hle
  have hunbroken := (counted_le_iff rfl (List.pairwise_cons.mp stoppedForAWeek_increasing).2).mp hle
  have hday := hunbroken 86400000 (Nat.zero_le _) (Nat.zero_le _) (by decide) ?_
  · exact absurd hday (by decide)
  · intro hne
    exact absurd rfl hne

private def stoppedOnce : History := [(60000, news .running), (7200000, news .stopped)]

private theorem stoppedOnce_stopsForGood : StopsForGood billedVm stoppedOnce 60000 14400000 := by
  intro before after heq hstretch
  rcases before with _ | ⟨first, _ | ⟨second, _ | ⟨third, rest⟩⟩⟩
  · obtain rfl : after = stoppedOnce := heq.symm
    exact absurd hstretch (by decide)
  · obtain ⟨rfl, -⟩ := List.cons.inj heq
    exact .inl rfl
  · obtain ⟨rfl, hrest⟩ := List.cons.inj heq
    obtain ⟨rfl, rfl⟩ := List.cons.inj hrest
    right
    constructor
    · exact ⟨[.running], .stopped, [], rfl, .inl rfl, List.not_mem_nil⟩
    · simp [told]
  · simp [stoppedOnce] at heq

/-- A VM that runs from the start of the window and is stopped after two hours is billed for what
it ran, whatever the length of the window. -/
theorem billed_le_running_iff_stopped_once :
    addHours 60000 14400000 0 (metered (rowAfter billedVm stoppedOnce)) ≤
        (runningTime billedVm stoppedOnce 60000 14400000 : Rat) / millisPerHour ∧
      totalHoursWith 60000 14400000 double [metered (rowAfter billedVm stoppedOnce)] ≤
        double ((runningTime billedVm stoppedOnce 60000 14400000 : Rat) / millisPerHour) := by
  have hincreasing : Increasing billedVm stoppedOnce := by
    simp [Increasing, billedVm, newVm, stoppedOnce]
  obtain ⟨hexact, hdouble⟩ := billed_le_running_iff meterTx "vm1" 0 stoppedOnce hincreasing
    60000 14400000
  exact ⟨hexact.mpr stoppedOnce_stopsForGood,
    (hdouble (by norm_num)).mpr stoppedOnce_stopsForGood⟩

end Sample

end CloudVM.Metering
