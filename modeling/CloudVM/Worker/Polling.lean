import CloudVM.Framework.Logic
import CloudVM.Vm.Handover
import CloudVM.Worker.Handler
import Mathlib.Algebra.Order.Floor.Div

/-!
# A machine that is waited for

The poller resizes the disk of a running machine and reboots it before it reports the machine. A
report that fails sends the poller into another round, where it does both again. Every call of a
round is made at most once, so a run is determined by the answers of its rounds.
-/

namespace CloudVM.Worker

open Process VmService

section Loop

variable (cfg : WorkerConfig) (t : PollTask)

/-- `_wait_for_ip_and_update` for any interval and any time, from `elapsed` on. -/
def pollWhile (pollInterval timeout elapsed : ℕ) (h : 0 < pollInterval) (lastLcm : Int) :
    VmProcess Unit :=
  if _ : elapsed < timeout then do
    let (finished, lastLcm) ← pollRound cfg t lastLcm
    if finished then pure ()
    else
      sleep pollInterval
      pollWhile pollInterval timeout (elapsed + pollInterval) h lastLcm
  else pollTimedOut t
termination_by timeout - elapsed

private theorem rounds_succ {p left : ℕ} (h : 0 < p) (hleft : 0 < left) :
    left ⌈/⌉ p = (left - p) ⌈/⌉ p + 1 := by
  rw [Nat.ceilDiv_eq_add_pred_div, Nat.ceilDiv_eq_add_pred_div]
  by_cases hlast : left ≤ p
  · have hnone : left - p = 0 := by omega
    have hone : (left + p - 1) / p = 1 := Nat.div_eq_of_lt_le (by omega) (by omega)
    have hzero : (0 + p - 1) / p = 0 := Nat.div_eq_of_lt (by omega)
    rw [hnone, hone, hzero]
  · have hsplit : left + p - 1 = (left - p + p - 1) + p := by omega
    rw [hsplit, Nat.add_div_right _ h]

private theorem pollWhile_eight (timeout elapsed : ℕ) (lastLcm : Int) :
    pollWhile cfg t 8 timeout elapsed (by omega) lastLcm =
      pollRounds cfg t ((timeout - elapsed) ⌈/⌉ 8) lastLcm := by
  generalize hn : (timeout - elapsed) ⌈/⌉ 8 = n
  induction n generalizing elapsed lastLcm with
  | zero =>
    have hover : ¬ elapsed < timeout := by
      intro hlt
      rw [rounds_succ (by omega) (by omega)] at hn
      omega
    rw [pollWhile, dif_neg hover, pollRounds]
  | succ n ih =>
    have hlt : elapsed < timeout := by
      by_contra hover
      have hzero : timeout - elapsed = 0 := by omega
      rw [hzero] at hn
      simp at hn
    have hnext : (timeout - (elapsed + 8)) ⌈/⌉ 8 = n := by
      rw [rounds_succ (by omega) (by omega), Nat.sub_sub] at hn
      omega
    rw [pollWhile, dif_pos hlt, pollRounds]
    congr 1
    funext r
    obtain ⟨finished, lcm⟩ := r
    simp only [ih (elapsed + 8) lcm hnext]

theorem waitForIpAndUpdate_eq :
    waitForIpAndUpdate cfg t = pollWhile cfg t 8 300 0 (by omega) (-1) :=
  (pollWhile_eight cfg t 300 0 (-1)).symm

end Loop

section Rounds

/-- What the calls of one round are answered; `shown` is for the states on the way. -/
structure RoundAnswers where
  info : Except Failure OneVmInfo
  shown : Except Failure Unit
  resize : Except Failure Unit
  reboot : Except Failure Unit
  write : Except Failure Unit
  publish : Except Failure Unit

/-- The round at hand, and how many rounds have looked at the machine, how many resizes have
succeeded and how many reboots were requested. -/
structure Polled where
  round : ℕ := 0
  looks : ℕ := 0
  resized : ℕ := 0
  reboots : ℕ := 0

def pollAnswer (a : ℕ → RoundAnswers) : (c : VmCall) → Polled → c.Answer × Polled
  | .oneVmInfo _, s => ((a s.round).info, { s with looks := s.looks + 1 })
  | .diskResize _ _, s => ((a s.round).resize,
      { s with resized := s.resized + (a s.round).resize.isOk.toNat })
  | .oneVmAction _ _, s => ((a s.round).reboot, { s with reboots := s.reboots + 1 })
  | .updateVmStatus _, s => ((a s.round).write, s)
  | .publishStatus m, s =>
    match m.status with
    | .lcm _ => ((a s.round).shown, s)
    | .row _ => ((a s.round).publish, s)
  | .sleep _, s => ((), { s with round := s.round + 1 })
  | c, s => (noAnswer c, s)

namespace RoundAnswers

variable (r : RoundAnswers)

def ready : Bool :=
  match r.info with
  | .error _ => false
  | .ok vm => vm.state = some 3 && vm.lcmState = some 3 &&
      ((extractIp vm).filter fun ip => ip ≠ "").isSome

def failed : Bool :=
  match r.info with
  | .error _ => false
  | .ok vm => (vm.state = some 6 || vm.state = some 7) && vm.lcmState.isSome

def reported : Bool := r.write.isOk && r.publish.isOk

def resizes (t : PollTask) : Bool := r.ready && t.diskGb.any (fun g => 0 < g) && r.resize.isOk

def finishes : Bool := (r.ready || r.failed) && r.reported

end RoundAnswers

variable (cfg : WorkerConfig) (t : PollTask) (a : ℕ → RoundAnswers)

private theorem resizeDisk_exec (s : Polled) :
    (resizeDisk t).exec (pollAnswer a) s = (.ok (), { s with
      resized := s.resized + (t.diskGb.any (fun g => 0 < g) && (a s.round).resize.isOk).toNat
      reboots := s.reboots + (t.diskGb.any (fun g => 0 < g) && (a s.round).resize.isOk).toNat }) := by
  unfold resizeDisk
  cases hdisk : t.diskGb with
  | none => simp
  | some g =>
    by_cases hg : 0 < g
    · cases hresize : (a s.round).resize with
      | error e => simp [hg, ignoring, pollAnswer, hresize, Except.isOk, Except.toBool]
      | ok _ =>
        cases hreboot : (a s.round).reboot with
        | error e =>
          simp [hg, ignoring, pollAnswer, hresize, hreboot, oneVmAction, Except.isOk, Except.toBool]
        | ok _ =>
          simp [hg, ignoring, pollAnswer, hresize, hreboot, oneVmAction, Except.isOk, Except.toBool]
    · simp [hg]

private theorem report_exec (w : StatusWrite) (m : StatusUpdate) {status : VmStatus}
    (hm : m.status = .row status) (s : Polled) :
    ∃ out, (report w m).exec (pollAnswer a) s = (out, s) ∧ out.isOk = (a s.round).reported := by
  cases hwrite : (a s.round).write with
  | error e =>
    exact ⟨.error e, by simp [report, updateVmStatus, pollAnswer, hwrite],
      by simp [RoundAnswers.reported, hwrite, Except.isOk, Except.toBool]⟩
  | ok _ =>
    refine ⟨(a s.round).publish, ?_, by simp [RoundAnswers.reported, hwrite, Except.isOk, Except.toBool]⟩
    simp [report, updateVmStatus, publishStatus, pollAnswer, hwrite, hm]

private theorem emitIntermediate_exec (lcm lastLcm : Int) (s : Polled) :
    ∃ out, (emitIntermediate t lcm lastLcm).exec (pollAnswer a) s = (out, s) ∧
      (lcm = 3 → out.isOk = true) := by
  unfold emitIntermediate
  by_cases hsame : lcm = lastLcm
  · exact ⟨.ok lastLcm, by simp [hsame], fun _ => rfl⟩
  · rw [if_neg hsame]
    cases hmap : lcmStatusMap lcm with
    | none => exact ⟨.ok lastLcm, by simp, fun _ => rfl⟩
    | some shown =>
      cases shown with
      | row _ => exact ⟨.ok lcm, by simp, fun _ => rfl⟩
      | lcm state =>
        have hthree : lcm ≠ 3 := by
          intro hthree
          rw [hthree] at hmap
          cases hmap
        cases hshown : (a s.round).shown with
        | error e =>
          exact ⟨.error e, by simp [publishStatus, pollAnswer, hshown], fun h => absurd h hthree⟩
        | ok _ =>
          exact ⟨.ok lcm, by simp [publishStatus, pollAnswer, hshown], fun _ => rfl⟩

private theorem reportRunning_exec {vm : OneVmInfo} (s : Polled)
    (hip : ((extractIp vm).filter fun ip => ip ≠ "").isSome = true) :
    ∃ out, (reportRunning cfg t vm).exec (pollAnswer a) s = (out, { s with
        resized := s.resized + (t.diskGb.any (fun g => 0 < g) && (a s.round).resize.isOk).toNat
        reboots := s.reboots + (t.diskGb.any (fun g => 0 < g) && (a s.round).resize.isOk).toNat }) ∧
      (∀ finished, out = .ok finished → finished = true) ∧ out.isOk = (a s.round).reported := by
  obtain ⟨ip, hip⟩ := Option.isSome_iff_exists.mp hip
  unfold reportRunning
  rw [hip]
  simp only [exec_bind, resizeDisk_exec]
  obtain ⟨out, hreport, hok⟩ := report_exec a
    { vmId := t.vmId, status := .running, ipAddress := some (applyIpOffset ip cfg.oneIpOffset),
      oneVmId := some t.oneVmId, sshHost := some (applyIpOffset ip cfg.oneIpOffset),
      sshUsername := t.sshUsername }
    { vmId := t.vmId, status := .row .running, oneVmId := some t.oneVmId,
      ipAddress := some (applyIpOffset ip cfg.oneIpOffset),
      sshHost := some (applyIpOffset ip cfg.oneIpOffset) } rfl
    { s with
      resized := s.resized + (t.diskGb.any (fun g => 0 < g) && (a s.round).resize.isOk).toNat
      reboots := s.reboots + (t.diskGb.any (fun g => 0 < g) && (a s.round).resize.isOk).toNat }
  rw [hreport]
  cases out with
  | error e => exact ⟨.error e, rfl, by simp, hok⟩
  | ok _ => exact ⟨.ok true, rfl, by simp, hok⟩

/-- What a round does to the counts, and when it is the last. -/
def Rounded (lastLcm : Int) (s : Polled) : Prop :=
  ∃ lcm', (pollRound cfg t lastLcm).exec (pollAnswer a) s =
    (.ok ((a s.round).finishes, lcm'), { s with
      looks := s.looks + 1
      resized := s.resized + ((a s.round).resizes t).toNat
      reboots := s.reboots + ((a s.round).resizes t).toNat })

private theorem rounded_blind (lastLcm : Int) (s : Polled)
    (h : ∀ vm, (a s.round).info = .ok vm → vm.state = none ∨ vm.lcmState = none) :
    Rounded cfg t a lastLcm s := by
  refine ⟨lastLcm, ?_⟩
  unfold pollRound
  simp only [exec_bind, exec_attempt]
  cases hinfo : (a s.round).info with
  | error e =>
    simp [pollState, oneVmInfo, pollAnswer, hinfo, RoundAnswers.finishes, RoundAnswers.ready,
      RoundAnswers.failed, RoundAnswers.resizes]
  | ok vm =>
    cases hstate : vm.state with
    | none =>
      simp [pollState, oneVmInfo, pollAnswer, hinfo, hstate, requireAttr, RoundAnswers.finishes,
        RoundAnswers.ready, RoundAnswers.failed, RoundAnswers.resizes]
    | some state =>
      have hlcm : vm.lcmState = none := by simpa [hstate] using h vm hinfo
      simp [pollState, oneVmInfo, pollAnswer, hinfo, hstate, hlcm, requireAttr,
        RoundAnswers.finishes, RoundAnswers.ready, RoundAnswers.failed, RoundAnswers.resizes]

variable {vm : OneVmInfo} {state lcm : Int} {s : Polled}

private theorem pollState_exec (lastLcm : Int) (hinfo : (a s.round).info = .ok vm)
    (hstate : vm.state = some state) (hlcm : vm.lcmState = some lcm) :
    (pollState t lastLcm).exec (pollAnswer a) s =
      (if state = 6 ∨ state = 7 then do
          reportFailureState t state
          pure none
        else do
          let lastLcm ← emitIntermediate t lcm lastLcm
          pure (some (vm, lastLcm))).exec (pollAnswer a) { s with looks := s.looks + 1 } := by
  simp [pollState, oneVmInfo, pollAnswer, hinfo, hstate, hlcm, requireAttr]

private theorem rounded_failed (lastLcm : Int) (hinfo : (a s.round).info = .ok vm)
    (hstate : vm.state = some state) (hlcm : vm.lcmState = some lcm)
    (h : state = 6 ∨ state = 7) : Rounded cfg t a lastLcm s := by
  refine ⟨lastLcm, ?_⟩
  have hready : (a s.round).ready = false := by
    simp [RoundAnswers.ready, hinfo, hstate]
    omega
  have hfailed : (a s.round).failed = true := by
    simpa [RoundAnswers.failed, hinfo, hstate, hlcm] using h
  obtain ⟨out, hreport, hok⟩ := report_exec a
    { vmId := t.vmId, status := .error, oneVmId := some t.oneVmId }
    { vmId := t.vmId, status := .row .error, oneVmId := some t.oneVmId,
      error := some s!"VM failure state={state}" } rfl { s with looks := s.looks + 1 }
  unfold pollRound
  simp only [exec_bind, exec_attempt, pollState_exec t a lastLcm hinfo hstate hlcm, if_pos h,
    reportFailureState, hreport]
  cases out with
  | error e =>
    simp [RoundAnswers.finishes, RoundAnswers.resizes, hready, hfailed, ← hok, Except.isOk,
      Except.toBool]
  | ok _ =>
    simp [RoundAnswers.finishes, RoundAnswers.resizes, hready, hfailed, ← hok, Except.isOk,
      Except.toBool]

private theorem rounded_shown (lastLcm : Int) (hinfo : (a s.round).info = .ok vm)
    (hstate : vm.state = some state) (hlcm : vm.lcmState = some lcm)
    (h : ¬ (state = 6 ∨ state = 7)) : Rounded cfg t a lastLcm s := by
  have hfailed : (a s.round).failed = false := by
    simpa [RoundAnswers.failed, hinfo, hstate, hlcm] using h
  obtain ⟨out, hshow, hok⟩ := emitIntermediate_exec t a lcm lastLcm { s with looks := s.looks + 1 }
  unfold Rounded pollRound
  simp only [exec_bind, exec_attempt, pollState_exec t a lastLcm hinfo hstate hlcm, if_neg h, hshow]
  by_cases hruns : state = 3 ∧ lcm = 3
  · obtain ⟨hthree, hlcmThree⟩ := hruns
    cases out with
    | error e => cases hok hlcmThree
    | ok lcm' =>
      refine ⟨lcm', ?_⟩
      by_cases hip : ((extractIp vm).filter fun ip => ip ≠ "").isSome = true
      · have hready : (a s.round).ready = true := by
          simp only [RoundAnswers.ready, hinfo, hstate, hlcm, hthree, hlcmThree, hip]
          rfl
        obtain ⟨out, hreport, hfinished, hok⟩ := reportRunning_exec cfg t a
          { s with looks := s.looks + 1 } hip
        simp only [exec_ret, pure_def, hstate, hlcm, hthree, hlcmThree, and_self, if_true, exec_bind,
          exec_attempt, hreport]
        cases out with
        | error e =>
          simp [RoundAnswers.finishes, RoundAnswers.resizes, hready, ← hok, Except.isOk,
            Except.toBool]
        | ok finished =>
          simp [RoundAnswers.finishes, RoundAnswers.resizes, hready, ← hok, hfinished finished rfl,
            Except.isOk, Except.toBool]
      · have hready : (a s.round).ready = false := by
          simp only [RoundAnswers.ready, hinfo, Bool.eq_false_of_not_eq_true hip, Bool.and_false]
        have hnone : reportRunning cfg t vm = pure false := by
          unfold reportRunning
          rw [Option.not_isSome_iff_eq_none.mp hip]
        simp [hstate, hlcm, hthree, hlcmThree, exec_attempt, hnone, RoundAnswers.finishes,
          RoundAnswers.resizes, hready, hfailed]
  · have hready : (a s.round).ready = false := by
      simp only [RoundAnswers.ready, hinfo, hstate, hlcm]
      simp
      omega
    cases out with
    | error e =>
      exact ⟨lastLcm, by simp [RoundAnswers.finishes, RoundAnswers.resizes, hready, hfailed]⟩
    | ok lcm' =>
      exact ⟨lcm', by simp [RoundAnswers.finishes, RoundAnswers.resizes, hready, hfailed, hstate,
        hlcm, hruns]⟩

private theorem rounded (lastLcm : Int) (s : Polled) : Rounded cfg t a lastLcm s := by
  by_cases hblind : ∀ vm, (a s.round).info = .ok vm → vm.state = none ∨ vm.lcmState = none
  · exact rounded_blind cfg t a lastLcm s hblind
  · push Not at hblind
    obtain ⟨vm, hinfo, hstate, hlcm⟩ := hblind
    obtain ⟨state, hstate⟩ := Option.ne_none_iff_exists'.mp hstate
    obtain ⟨lcm, hlcm⟩ := Option.ne_none_iff_exists'.mp hlcm
    by_cases hfailed : state = 6 ∨ state = 7
    · exact rounded_failed cfg t a lastLcm hinfo hstate hlcm hfailed
    · exact rounded_shown cfg t a lastLcm hinfo hstate hlcm hfailed

end Rounds

section Whole

variable (cfg : WorkerConfig) (t : PollTask) (a : ℕ → RoundAnswers)

def polled (pollInterval timeout : ℕ) (h : 0 < pollInterval) : Polled :=
  ((pollWhile cfg t pollInterval timeout 0 h (-1)).exec (pollAnswer a) ⟨0, 0, 0, 0⟩).2

/-- The resizes of `n` rounds from the `i`-th on. -/
def resizesFrom : ℕ → ℕ → ℕ
  | _, 0 => 0
  | i, n + 1 => ((a i).resizes t).toNat + if (a i).finishes then 0 else resizesFrom (i + 1) n

private theorem pollTimedOut_exec (s : Polled) :
    ∃ out, (pollTimedOut t).exec (pollAnswer a) s = (out, s) := by
  obtain ⟨out, hout, -⟩ := report_exec a { vmId := t.vmId, status := .error, oneVmId := some t.oneVmId }
    { vmId := t.vmId, status := .row .error, oneVmId := some t.oneVmId,
      error := some "Timed out waiting for IP address" } rfl s
  exact ⟨out, hout⟩

private theorem pollWhile_exec {p timeout elapsed n : ℕ} (hp : 0 < p) (lastLcm : Int) (s : Polled)
    (hn : (timeout - elapsed) ⌈/⌉ p = n) :
    let s' := ((pollWhile cfg t p timeout elapsed hp lastLcm).exec (pollAnswer a) s).2
    s'.looks ≤ s.looks + n ∧ s'.resized = s.resized + resizesFrom t a s.round n ∧
      s'.reboots = s.reboots + resizesFrom t a s.round n := by
  induction n generalizing elapsed lastLcm s with
  | zero =>
    have hover : ¬ elapsed < timeout := by
      intro hlt
      rw [rounds_succ hp (by omega)] at hn
      omega
    obtain ⟨out, hout⟩ := pollTimedOut_exec t a s
    rw [pollWhile, dif_neg hover, hout]
    simp [resizesFrom]
  | succ n ih =>
    have hlt : elapsed < timeout := by
      by_contra hover
      have hzero : timeout - elapsed = 0 := by omega
      rw [hzero] at hn
      simp at hn
    have hnext : (timeout - (elapsed + p)) ⌈/⌉ p = n := by
      rw [rounds_succ hp (by omega), Nat.sub_sub] at hn
      omega
    obtain ⟨lcm, hround⟩ := rounded cfg t a lastLcm s
    rw [pollWhile, dif_pos hlt]
    simp only [exec_bind, hround, resizesFrom]
    by_cases hfinish : (a s.round).finishes = true
    · simp [hfinish]
    · -- the report has not gone through, so the next round starts from new counts
      obtain ⟨hlooks, hresized, hreboots⟩ := ih lcm
        { s with
          round := s.round + 1
          looks := s.looks + 1
          resized := s.resized + ((a s.round).resizes t).toNat
          reboots := s.reboots + ((a s.round).resizes t).toNat } hnext
      dsimp only at hlooks hresized hreboots
      simp only [hfinish, Bool.false_eq_true, if_false, sleep, call_bind, ret_bind, exec_call, pollAnswer]
      refine ⟨?_, ?_, ?_⟩ <;> omega

/-- Round `j` comes about if no round from `i` on was the last before. -/
def ComesAbout (i j : ℕ) : Prop := ∀ k, i ≤ k → k < j → (a k).finishes = false

/-- A round that resizes the disk also reports the machine, or no later round of the `n` that comes
about resizes it again. -/
def SettledIn (n : ℕ) : Prop :=
  ∀ i < n, ComesAbout a 0 i → (a i).resizes t = true → (a i).reported = true ∨
    ∀ j < n, i < j → ComesAbout a 0 j → (a j).resizes t = false

private theorem reported_eq_false {r : RoundAnswers} (hresizes : r.resizes t = true)
    (hgoes : r.finishes = false) : r.reported = false := by
  simp only [RoundAnswers.resizes, Bool.and_eq_true] at hresizes
  simpa [RoundAnswers.finishes, hresizes.1.1] using hgoes

private theorem comesAbout_succ {i j : ℕ} (hgoes : (a i).finishes = false) :
    ComesAbout a i j ↔ ComesAbout a (i + 1) j := by
  constructor
  · intro h k hk
    exact h k (by omega)
  · intro h k hk hkj
    by_cases hki : k = i
    · rw [hki]
      exact hgoes
    · exact h k (by omega) hkj

private theorem not_comesAbout {i j : ℕ} (hends : (a i).finishes = true) (hij : i < j) :
    ¬ ComesAbout a i j := by
  intro h
  rw [h i (le_refl i) hij] at hends
  cases hends

private theorem resizesFrom_eq_zero (n i : ℕ) :
    resizesFrom t a i n = 0 ↔
      ∀ j, i ≤ j → j < i + n → ComesAbout a i j → (a j).resizes t = false := by
  induction n generalizing i with
  | zero =>
    have hnone : ∀ j, i ≤ j → ¬ j < i + 0 := fun j hij hlt => by omega
    simp only [resizesFrom, true_iff]
    intro j hij hlt
    exact absurd hlt (hnone j hij)
  | succ n ih =>
    rw [resizesFrom, Nat.add_eq_zero_iff, Bool.toNat_eq_zero]
    constructor
    · intro ⟨hfirst, hrest⟩ j hij hjn hcomes
      by_cases hji : j = i
      · rw [hji]
        exact hfirst
      · cases hends : (a i).finishes with
        | true => exact absurd hcomes (not_comesAbout a hends (by omega))
        | false =>
          rw [hends, if_neg Bool.false_ne_true, ih] at hrest
          exact hrest j (by omega) (by omega) ((comesAbout_succ a hends).mp hcomes)
    · intro h
      refine ⟨h i (le_refl i) (by omega) fun k hk hki => by omega, ?_⟩
      cases hends : (a i).finishes with
      | true => rfl
      | false =>
        rw [if_neg Bool.false_ne_true, ih]
        intro j hij hjn hcomes
        exact h j (by omega) (by omega) ((comesAbout_succ a hends).mpr hcomes)

private theorem resizesFrom_le_one (n i : ℕ) :
    resizesFrom t a i n ≤ 1 ↔
      ∀ j, i ≤ j → j < i + n → ComesAbout a i j → (a j).resizes t = true →
        (a j).reported = true ∨
          ∀ k, j < k → k < i + n → ComesAbout a i k → (a k).resizes t = false := by
  induction n generalizing i with
  | zero =>
    simp only [resizesFrom]
    constructor
    · intro _ j hij hjn
      omega
    · intro _
      omega
  | succ n ih =>
    rw [resizesFrom]
    cases hends : (a i).finishes with
    | true =>
      have hreported : (a i).reported = true := by
        simp only [RoundAnswers.finishes, Bool.and_eq_true] at hends
        exact hends.2
      have hone : ((a i).resizes t).toNat + 0 ≤ 1 := Bool.toNat_le _
      simp only [if_true, hone, true_iff]
      intro j hij hjn hcomes _
      by_cases hji : j = i
      · rw [hji]
        exact .inl hreported
      · exact absurd hcomes (not_comesAbout a hends (by omega))
    | false =>
      have hstep : ∀ j, ComesAbout a i j ↔ ComesAbout a (i + 1) j := fun j =>
        comesAbout_succ a hends
      rw [if_neg Bool.false_ne_true]
      cases hresizes : (a i).resizes t with
      | false =>
        rw [Bool.toNat_false, Nat.zero_add, ih]
        constructor
        · intro h j hij hjn hcomes hj
          by_cases hji : j = i
          · rw [hji, hresizes] at hj
            cases hj
          · refine (h j (by omega) (by omega) ((hstep j).mp hcomes) hj).imp_right ?_
            intro hlater k hjk hkn hk
            exact hlater k hjk (by omega) ((hstep k).mp hk)
        · intro h j hij hjn hcomes hj
          refine (h j (by omega) (by omega) ((hstep j).mpr hcomes) hj).imp_right ?_
          intro hlater k hjk hkn hk
          exact hlater k hjk (by omega) ((hstep k).mpr hk)
      | true =>
        -- the first resize of the run: from here on there must be none
        have hnone : 1 + resizesFrom t a (i + 1) n ≤ 1 ↔ resizesFrom t a (i + 1) n = 0 := by omega
        rw [Bool.toNat_true, hnone, resizesFrom_eq_zero]
        constructor
        · intro h j hij hjn hcomes hj
          by_cases hji : j = i
          · right
            intro k hjk hkn hk
            exact h k (by omega) (by omega) ((hstep k).mp hk)
          · rw [h j (by omega) (by omega) ((hstep j).mp hcomes)] at hj
            cases hj
        · intro h j hij hjn hcomes
          have hfirst := h i (le_refl i) (by omega) (fun k hk hki => by omega) hresizes
          rw [reported_eq_false t hresizes hends] at hfirst
          exact hfirst.resolve_left Bool.false_ne_true j (by omega) (by omega) ((hstep j).mpr hcomes)

private theorem polled_spec (p timeout : ℕ) (h : 0 < p) :
    (polled cfg t a p timeout h).looks ≤ timeout ⌈/⌉ p ∧
      (polled cfg t a p timeout h).resized = resizesFrom t a 0 (timeout ⌈/⌉ p) ∧
      (polled cfg t a p timeout h).reboots = resizesFrom t a 0 (timeout ⌈/⌉ p) := by
  have hrun := pollWhile_exec cfg t a h (-1) ⟨0, 0, 0, 0⟩ (rfl : (timeout - 0) ⌈/⌉ p = _)
  simpa [polled] using hrun

/-- One run of the poller resizes the disk at most once, reboots the machine at most once and ends
within its rounds exactly if no resize is followed by a failed report and a second resize. -/
theorem poller_resizes_once_iff (pollInterval timeout : ℕ) (h : 0 < pollInterval) :
    ((polled cfg t a pollInterval timeout h).resized ≤ 1 ∧
      (polled cfg t a pollInterval timeout h).reboots ≤ 1 ∧
      (polled cfg t a pollInterval timeout h).looks ≤ timeout ⌈/⌉ pollInterval) ↔
      SettledIn t a (timeout ⌈/⌉ pollInterval) := by
  obtain ⟨hlooks, hresized, hreboots⟩ := polled_spec cfg t a pollInterval timeout h
  rw [hresized, hreboots]
  have honce := resizesFrom_le_one t a (timeout ⌈/⌉ pollInterval) 0
  simp only [Nat.zero_add, Nat.zero_le, true_imp_iff] at honce
  simp only [hlooks, and_true, and_self, honce, SettledIn]
  constructor
  · intro hsettled i hi hcomes hresizes
    refine (hsettled i hi hcomes hresizes).imp_right ?_
    intro hlater j hj hij
    exact hlater j hij hj
  · intro hsettled i hi hcomes hresizes
    refine (hsettled i hi hcomes hresizes).imp_right ?_
    intro hlater j hij hj
    exact hlater j hj hij

private def plainPoller : WorkerConfig := ⟨0, false, [], id, id⟩

private def twentyGb : PollTask := ⟨"7f1d6c1e-3a52-4c8b-9d07-5b1f0e2a6c34", 42, none, some 20⟩

private def running (write : Except Failure Unit) : RoundAnswers where
  info := .ok { state := some 3, lcmState := some 3, nicIps := [some "10.0.0.7"] }
  shown := .ok ()
  resize := .ok ()
  reboot := .ok ()
  write := write
  publish := .ok ()

theorem poller_resizes_once_iff_running : 0 < 8 ∧
    (polled plainPoller twentyGb (fun _ => running (.ok ())) 8 300 (by omega)).resized ≤ 1 ∧
    (polled plainPoller twentyGb (fun _ => running (.ok ())) 8 300 (by omega)).reboots ≤ 1 ∧
    (polled plainPoller twentyGb (fun _ => running (.ok ())) 8 300 (by omega)).looks ≤ 300 ⌈/⌉ 8 := by
  have honce := poller_resizes_once_iff plainPoller twentyGb (fun _ => running (.ok ())) 8 300
    (by omega)
  exact ⟨by omega, honce.mpr fun _ _ _ _ => .inl rfl⟩

/-- The row cannot be written in the first round that finds the machine ready. -/
theorem poller_resizes_twice :
    ¬ (polled plainPoller twentyGb
      (fun i => running (if i = 0 then .error ⟨.other, "connection refused"⟩ else .ok ())) 8 300
        (by omega)).resized ≤ 1 := by
  rw [(polled_spec _ _ _ _ _ _).2.1]
  decide

end Whole

end CloudVM.Worker
