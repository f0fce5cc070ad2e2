import CloudVM.Terminal.Gateway

/-!
# What block mode blocks

A dangerous line that reaches its end at the shell should be one of the violations the gateway
counts. That is so for every event in which the stretches of text between two `\n`, as the buffer
has them, show at least as many dangerous lines as they hold at the shell.
-/

namespace CloudVM.Terminal

open Lines

section Shell

/-- Enter is sent as `\r`, `\n` or `\r\n`. -/
def isEnter (u : UInt16) : Bool := isCr u || isLf u

/-- The lines that are completed in a text, `\r\n` being one Enter. -/
def completedLines (afterCr : Bool) (line : Units) : Units → List Units
  | [] => []
  | u :: text =>
      if afterCr && isLf u then completedLines false [] text
      else if isEnter u then line :: completedLines (isCr u) [] text
      else completedLines false (line ++ [u]) text

theorem dangerous_nil : dangerous [] = false := by decide

/-- The empty line between `\r` and `\n` is not dangerous. -/
theorem countP_completedLines (afterCr : Bool) (line text : Units)
    (h : afterCr = true → line = []) :
    (completedLines afterCr line text).countP dangerous = (ended isEnter line text).countP dangerous := by
  induction text generalizing afterCr line with
  | nil => rfl
  | cons u text ih =>
    have hrest := fun b => ih b [] fun _ => rfl
    by_cases hlf : afterCr = true ∧ isLf u = true
    · obtain ⟨hcr, hu⟩ := hlf
      simp [completedLines, ended, isEnter, hcr, hu, h hcr, hrest, dangerous_nil]
    · have hskip : (afterCr && isLf u) = false := by simpa using hlf
      by_cases hu : isEnter u = true
      · simp [completedLines, ended, hskip, hu, hrest, List.countP_cons]
      · have hnext := ih false (line ++ [u]) (by simp)
        simp [completedLines, ended, hskip, hu, hnext]

end Shell

section Counting

private theorem trim_append_cr (s : Units) : trim (s ++ [cr]) = trim s := by
  have hcr : isSpace cr = true := by decide
  unfold trim
  rw [List.dropWhile_append]
  by_cases h : (s.dropWhile isSpace).isEmpty = true
  · have hnil : s.dropWhile isSpace = [] := by simpa using h
    simp [hnil, hcr]
  · rw [if_neg h, List.rdropWhile_concat_pos _ _ _ hcr]

theorem dangerous_dropCr (line : Units) : dangerous (dropCr line) = dangerous line := by
  unfold dropCr
  split
  · rename_i hlast
    have hsplit := List.dropLast_append_getLast? cr hlast
    conv_rhs => rw [← hsplit]
    rw [dangerous, dangerous, trim_append_cr]
  · rfl

theorem countP_segments (text : Units) :
    (segments text).countP dangerous = (ended isLf [] text).countP dangerous := by
  rw [segments, List.countP_map]
  congr 1
  funext line
  exact dangerous_dropCr line

variable {settings : Settings}

/-- If nothing is refused, each dangerous segment is counted and the limit is not reached by one. -/
theorem countViolations_passed (hmode : settings.dangerousInputMode = .block) {segs : List Units}
    {v : ℕ} (h : (countViolations settings segs v).1 = true) :
    (countViolations settings segs v).2 = v + segs.countP dangerous ∧
      (segs.countP dangerous = 0 ∨
        v + segs.countP dangerous < settings.dangerousInputMaxViolations) := by
  induction segs generalizing v with
  | nil => simp [countViolations]
  | cons segment rest ih =>
    by_cases hempty : trim segment = []
    · have hd : dangerous segment = false := by
        rw [dangerous, hempty]
        exact dangerous_nil
      simp only [countViolations, hempty, if_true] at h ⊢
      simpa [hd] using ih h
    · by_cases hd : dangerous segment = true
      · have hm : matchesPattern (collapseSpace (trim segment)) = true := hd
        by_cases hlimit : settings.dangerousInputMaxViolations ≤ v + 1
        · simp [countViolations, hempty, hm, hmode, hlimit] at h
        · simp only [countViolations, hempty, hm, hmode, hlimit, if_true, if_false, and_false] at h ⊢
          obtain ⟨hcount, hbelow⟩ := ih h
          rw [List.countP_cons_of_pos hd]
          omega
      · have hm : matchesPattern (collapseSpace (trim segment)) = false := eq_false_of_ne_true hd
        simp only [countViolations, hempty, hm, if_false, Bool.false_eq_true] at h ⊢
        rw [List.countP_cons_of_neg hd]
        exact ih h

theorem le_countViolations (segs : List Units) (v : ℕ) : v ≤ (countViolations settings segs v).2 := by
  induction segs generalizing v with
  | nil => exact le_rfl
  | cons segment rest ih =>
    simp only [countViolations]
    split
    · exact ih v
    · split
      · split
        · exact Nat.le_succ v
        · exact le_trans (Nat.le_succ v) (ih (v + 1))
      · exact ih v

end Counting

section Judging

variable (settings : Settings) (x : Socket)

def Admitted (data : Units) (now now' : ℤ) : Prop :=
  0 < byteLength data ∧ byteLength data ≤ maxInputBytesPerEvent ∧
    (allowInputRate x now (byteLength data)).1 = true ∧
    (allowInputEventRate (allowInputRate x now (byteLength data)).2 now').1 = true

/-- What the buffer still has of the unended line once the event is added to it. -/
def kept (data : Units) : Units :=
  sliceLast (maxCommandBufferChars - data.length) x.commandBuffer.text

/-- The stretches that the event ends with `\n`, as the buffer has them. -/
def submitted (data : Units) : List Units := ended isLf (kept x data) data

/-- None of the stretches is dangerous, or the violations stay below the limit. -/
def BelowLimit (data : Units) : Prop :=
  (submitted x data).countP dangerous = 0 ∨
    x.dangerousInputViolations + (submitted x data).countP dangerous <
      settings.dangerousInputMaxViolations

/-- Of the lines that end in a stretch at the shell, at most one is dangerous, and only if the
stretch is so as the buffer has it. After the last `\n` of the event none that ends is dangerous. -/
structure Judged (written data : Units) : Prop where
  stretches : List.Forall₂
    (fun shell seen => (whole isCr shell).countP dangerous ≤ if dangerous seen then 1 else 0)
    (ended isLf (unended isEnter [] written) data) (submitted x data)
  rest : (ended isCr [] (unended isLf (unended isEnter [] written) data)).countP dangerous = 0

/-- If the event is to be forwarded, its dangerous lines are judged in it. -/
def JudgedIn : TerminalEvent → Prop
  | .input data now now' => ∀ written text, x.stream = some written → data = some text →
      Admitted x text now now' → BelowLimit settings x text → Judged x written text
  | _ => True

end Judging

section Effects

variable (settings : Settings) {x : Socket}

theorem allowInputRate_keeps (x : Socket) (now : ℤ) (n : ℕ) :
    (allowInputRate x now n).2.stream = x.stream ∧
      (allowInputRate x now n).2.commandBuffer = x.commandBuffer ∧
      (allowInputRate x now n).2.dangerousInputViolations = x.dangerousInputViolations := by
  unfold allowInputRate
  simp only
  split
  · exact ⟨rfl, rfl, rfl⟩
  · split
    · exact ⟨rfl, rfl, rfl⟩
    · split <;> exact ⟨rfl, rfl, rfl⟩

theorem allowInputEventRate_keeps (x : Socket) (now : ℤ) :
    (allowInputEventRate x now).2.stream = x.stream ∧
      (allowInputEventRate x now).2.commandBuffer = x.commandBuffer ∧
      (allowInputEventRate x now).2.dangerousInputViolations = x.dangerousInputViolations := by
  unfold allowInputEventRate
  simp only
  split
  · exact ⟨rfl, rfl, rfl⟩
  · split <;> exact ⟨rfl, rfl, rfl⟩

/-- The cut of the buffer never reaches the event itself. -/
theorem countP_submitted {data : Units} (h : byteLength data ≤ maxInputBytesPerEvent) :
    (segments (sliceLast maxCommandBufferChars (x.commandBuffer.text ++ data))).countP dangerous =
      (submitted x data).countP dangerous := by
  have hlen : data.length ≤ maxCommandBufferChars :=
    le_trans (length_le_byteLength data) (le_trans h (by decide))
  have hclear : Clear isLf (kept x data) := x.commandBuffer.clear.subset (sliceLast_subset _ _)
  rw [countP_segments, sliceLast_append hlen]
  exact congrArg (List.countP dangerous) (ended_start hclear data)

theorem inspectSubmittedCommands_passed (hmode : settings.dangerousInputMode = .block) {data : Units}
    (hlen : byteLength data ≤ maxInputBytesPerEvent)
    (h : (inspectSubmittedCommands settings x data).1 = true) :
    (inspectSubmittedCommands settings x data).2.dangerousInputViolations =
        x.dangerousInputViolations + (submitted x data).countP dangerous ∧
      BelowLimit settings x data := by
  simp only [inspectSubmittedCommands] at h ⊢
  have hpassed := countViolations_passed hmode h
  rw [countP_submitted hlen] at hpassed
  exact hpassed

theorem le_inspectSubmittedCommands (data : Units) : x.dangerousInputViolations ≤
    (inspectSubmittedCommands settings x data).2.dangerousInputViolations := by
  simp only [inspectSubmittedCommands]
  exact le_countViolations _ _

theorem handleInput_refused {written text : Units} {now now' : ℤ} (hs : x.stream = some written)
    (h : ¬ Admitted x text now now') :
    (handleInput settings x (some text) now now').2.stream = x.stream ∧
      (handleInput settings x (some text) now now').2.dangerousInputViolations =
        x.dangerousInputViolations := by
  have hrate := allowInputRate_keeps x now (byteLength text)
  have hevents := allowInputEventRate_keeps (allowInputRate x now (byteLength text)).2 now'
  by_cases hzero : byteLength text = 0
  · simp [handleInput, hs, hzero]
  by_cases hlarge : maxInputBytesPerEvent < byteLength text
  · simp [handleInput, hs, hzero, hlarge]
  by_cases hr : (allowInputRate x now (byteLength text)).1 = true
  · have he : (allowInputEventRate (allowInputRate x now (byteLength text)).2 now').1 = false := by
      apply eq_false_of_ne_true
      intro he
      exact h ⟨Nat.pos_of_ne_zero hzero, not_lt.mp hlarge, hr, he⟩
    simp [handleInput, hs, hzero, hlarge, hr, he, hrate, hevents]
  · simp [handleInput, hs, hzero, hlarge, hr, hrate]

/-- An event that gets to the inspection is judged as if the windows were not kept. -/
theorem handleInput_admitted {written text : Units} {now now' : ℤ} (hs : x.stream = some written)
    (h : Admitted x text now now') :
    ∃ y : Socket, y.stream = x.stream ∧ y.commandBuffer = x.commandBuffer ∧
      y.dangerousInputViolations = x.dangerousInputViolations ∧
      (handleInput settings x (some text) now now').2 =
        if (inspectSubmittedCommands settings y text).1 then
          { (inspectSubmittedCommands settings y text).2 with stream := some (written ++ text) }
        else (inspectSubmittedCommands settings y text).2 := by
  obtain ⟨hzero, hlarge, hr, he⟩ := h
  have hrate := allowInputRate_keeps x now (byteLength text)
  have hevents := allowInputEventRate_keeps (allowInputRate x now (byteLength text)).2 now'
  refine ⟨(allowInputEventRate (allowInputRate x now (byteLength text)).2 now').2, ?_, ?_, ?_, ?_⟩
  · rw [hevents.1, hrate.1]
  · rw [hevents.2.1, hrate.2.1]
  · rw [hevents.2.2, hrate.2.2]
  · simp only [handleInput, hs, hzero.ne', not_lt.mpr hlarge, hr, he, if_false,
      Bool.not_true, Bool.false_eq_true]
    split <;> rfl

theorem handleInput_cases (hmode : settings.dangerousInputMode = .block) (data : Option Units)
    (now now' : ℤ) :
    ((handleInput settings x data now now').2.stream = x.stream ∧
      x.dangerousInputViolations ≤ (handleInput settings x data now now').2.dangerousInputViolations) ∨
    ∃ written text, x.stream = some written ∧ data = some text ∧ Admitted x text now now' ∧
      BelowLimit settings x text ∧
      (handleInput settings x data now now').2.stream = some (written ++ text) ∧
      (handleInput settings x data now now').2.dangerousInputViolations =
        x.dangerousInputViolations + (submitted x text).countP dangerous := by
  cases hs : x.stream with
  | none => left; simp [handleInput, hs]
  | some written =>
    cases data with
    | none => left; simp [handleInput, hs]
    | some text =>
      by_cases ha : Admitted x text now now'
      · obtain ⟨y, hstream, hbuffer, hviolations, hy⟩ := handleInput_admitted settings hs ha
        rw [hy]
        by_cases hi : (inspectSubmittedCommands settings y text).1 = true
        · right
          have hpassed := inspectSubmittedCommands_passed settings hmode ha.2.1 hi
          simp only [BelowLimit, submitted, kept, hbuffer, hviolations] at hpassed
          rw [if_pos hi]
          exact ⟨written, text, rfl, rfl, ha, hpassed.2, rfl, hpassed.1⟩
        · left
          rw [if_neg hi, ← hs, ← hstream, ← hviolations]
          exact ⟨rfl, le_inspectSubmittedCommands settings text⟩
      · left
        obtain ⟨hstream, hviolations⟩ := handleInput_refused settings hs ha
        exact ⟨hstream.trans hs, hviolations.ge⟩

end Effects

section Runs

/-- The dangerous lines that have been completed at the shell. -/
def executed (written : Units) : ℕ := (completedLines false [] written).countP dangerous

theorem executed_eq (written : Units) :
    executed written = (ended isEnter [] written).countP dangerous :=
  countP_completedLines false [] written (by simp)

theorem executed_append (written text : Units) :
    executed (written ++ text) =
      executed written + (ended isEnter (unended isEnter [] written) text).countP dangerous := by
  rw [executed_eq, executed_eq, ended_append, List.countP_append]

private theorem clear_unended (written : Units) : Clear isCr (unended isEnter [] written) := by
  intro u hu
  have henter : isEnter u = false := Clear.unended (by simp [Clear]) written u hu
  exact (Bool.or_eq_false_iff.mp henter).1

/-- As long as the buffer has what stands unended at the shell, an event without `\r` that fits in
is judged. -/
theorem judged_of_same {x : Socket} {written data : Units}
    (hbuffer : x.commandBuffer.text = unended isEnter [] written)
    (hlen : x.commandBuffer.text.length + data.length ≤ maxCommandBufferChars)
    (hdata : Clear isCr data) : Judged x written data := by
  have hkept : kept x data = unended isEnter [] written := by
    rw [← hbuffer, kept, sliceLast, List.take_of_length_le, List.reverse_reverse]
    rw [List.length_reverse]
    omega
  obtain ⟨hlines, hrest⟩ := (clear_unended written).cut (p := isLf) hdata
  constructor
  · rw [submitted, hkept]
    apply List.forall₂_same.mpr
    intro line hline
    rw [whole_clear (hlines line hline), List.countP_singleton]
  · rw [ended_clear hrest]
    rfl

/-- An event whose dangerous lines are judged completes no more of them than are counted. -/
theorem executed_judged {x : Socket} {written text : Units} (h : Judged x written text) :
    executed (written ++ text) ≤ executed written + (submitted x text).countP dangerous := by
  have hlines : ended isEnter (unended isEnter [] written) text = _ :=
    ended_or isLf isCr (clear_unended written) text
  have hstretches := countP_flatMap_le h.stretches
  rw [executed_append, hlines, List.countP_append, h.rest]
  omega

/-- Every dangerous line at the shell has been counted, and the limit is not reached. -/
def Counted (settings : Settings) (x : Socket) : Prop :=
  ∀ written, x.stream = some written →
    executed written ≤ x.dangerousInputViolations ∧
      executed written < settings.dangerousInputMaxViolations

/-- A step in which the dangerous lines of an event that is forwarded are judged. -/
def JudgedStep (settings : Settings) (g : TerminalGateway) (l : String × TerminalEvent)
    (g' : TerminalGateway) : Prop :=
  TerminalStep settings g l g' ∧ JudgedIn settings (g l.1) l.2

variable {settings : Settings}

theorem Counted.after (hmode : settings.dangerousInputMode = .block) {x : Socket}
    (hx : Counted settings x) {e : TerminalEvent} (he : JudgedIn settings x e) :
    Counted settings (x.after settings e) := by
  cases e with
  | input data now now' =>
    intro written' hwritten'
    simp only [Socket.after] at hwritten' ⊢
    rcases handleInput_cases settings hmode data now now' with
      ⟨hstream, hle⟩ | ⟨written, text, hs, hdata, hadmitted, hbelow, hstream, hviolations⟩
    · rw [hstream] at hwritten'
      have hcounted := hx written' hwritten'
      exact ⟨le_trans hcounted.1 hle, hcounted.2⟩
    · obtain rfl : written ++ text = written' := by simpa [hstream] using hwritten'
      have hcounted := hx written hs
      have hjudged := executed_judged (he written text hs hdata hadmitted hbelow)
      rw [hviolations]
      unfold BelowLimit at hbelow
      omega
  | opened =>
    intro written hwritten
    obtain rfl : [] = written := by simpa [Socket.after] using hwritten
    have hpos := settings.one_le
    simp only [executed, completedLines, List.countP_nil]
    omega
  | cleanupSession =>
    intro written hwritten
    cases hwritten

theorem counted_step (hmode : settings.dangerousInputMode = .block) {g g' : TerminalGateway}
    {l : String × TerminalEvent} (hg : ∀ id, Counted settings (g id)) (h : JudgedStep settings g l g') :
    ∀ id, Counted settings (g' id) := by
  obtain ⟨hstep, hjudged⟩ := h
  intro id
  rw [hstep]
  by_cases hid : id = l.1
  · subst hid
    rw [Function.update_self]
    exact (hg l.1).after hmode hjudged
  · rw [Function.update_of_ne hid]
    exact hg id

/-- In block mode with limit `m`, whatever the clients send, at most `m - 1` dangerous lines are
completed on a stream, if the dangerous lines of every event that is forwarded are judged in it. -/
theorem block_mode_blocks (settings : Settings) (hmode : settings.dangerousInputMode = .block)
    {trace : List ((String × TerminalEvent) × TerminalGateway)} {g : TerminalGateway}
    (h : Run (JudgedStep settings) (fun _ => .initial) trace g) (id : String) {written : Units}
    (hw : (g id).stream = some written) :
    (completedLines false [] written).countP dangerous ≤
      settings.dangerousInputMaxViolations - 1 := by
  have hcounted : ∀ id, Counted settings (g id) :=
    h.invariant (fun _ _ hnone => by cases hnone) fun _ _ _ hg hstep => counted_step hmode hg hstep
  have hlt := (hcounted id written hw).2
  unfold executed at hlt
  omega

end Runs

section Sample

/-- Block mode with limit `m + 1`. -/
private def blocking (m : ℕ) : Settings := ⟨.block, m + 1, Nat.le_add_left 1 m⟩

private def only (x : Socket) : TerminalGateway := Function.update (fun _ => .initial) "s" x

private def keystrokes (s : String) : TerminalEvent := .input (some (units s)) 0 0

private def shellOpened : Socket := { Socket.initial with stream := some [] }

private theorem stream_only (x : Socket) : (only x "s").stream = x.stream := by simp [only]

private theorem only_step (m : ℕ) (x : Socket) (e : TerminalEvent) :
    TerminalStep (blocking m) (only x) ("s", e) (only (x.after (blocking m) e)) := by
  simp [TerminalStep, only]

private theorem opened_step (m : ℕ) :
    TerminalStep (blocking m) (fun _ => .initial) ("s", .opened) (only shellOpened) := rfl

private theorem only_judged {m : ℕ} {x : Socket} {e : TerminalEvent}
    (he : JudgedIn (blocking m) x e) :
    JudgedStep (blocking m) (only x) ("s", e) (only (x.after (blocking m) e)) := by
  constructor
  · exact only_step m x e
  · simpa [only] using he

/-- With a limit of one, a command ended by `\r` gets to the shell at once. -/
theorem return_not_blocked :
    ¬ ∀ settings : Settings, settings.dangerousInputMode = .block →
      ∀ (trace : List ((String × TerminalEvent) × TerminalGateway)) (g : TerminalGateway),
        Run (TerminalStep settings) (fun _ => .initial) trace g → ∀ (id : String) (written : Units),
          (g id).stream = some written → (completedLines false [] written).countP dangerous ≤
            settings.dangerousInputMaxViolations - 1 := by
  intro h
  have hrun := Run.head (opened_step 0)
    (Run.single (only_step 0 shellOpened (keystrokes "rm -rf /\r")))
  have hstream : (only (shellOpened.after (blocking 0) (keystrokes "rm -rf /\r")) "s").stream =
      some (units "rm -rf /\r") := by
    rw [stream_only]
    decide
  have hle := h (blocking 0) rfl _ _ hrun "s" _ hstream
  revert hle
  decide

private def firstTyped : Socket := shellOpened.after (blocking 1) (keystrokes "rm -rf /\n")

private def secondTyped : Socket := firstTyped.after (blocking 1) (keystrokes "reboot\n")

private theorem typed_run : ∃ trace,
    Run (JudgedStep (blocking 1)) (fun _ => .initial) trace (only secondTyped) := by
  have hfirst : JudgedIn (blocking 1) shellOpened (keystrokes "rm -rf /\n") := by
    intro written text hs htext _ _
    cases hs
    cases htext
    have hall : (units "rm -rf /\n").all (fun u => !isCr u) = true := by decide
    have hdata : Clear isCr (units "rm -rf /\n") := by
      intro u hu
      simpa using List.all_eq_true.mp hall u hu
    exact judged_of_same rfl (by decide) hdata
  -- the limit is reached, so the event is not to be forwarded
  have hsecond : JudgedIn (blocking 1) firstTyped (keystrokes "reboot\n") := by
    intro written text hs htext _ hbelow
    cases htext
    have hreached : ¬ BelowLimit (blocking 1) firstTyped (units "reboot\n") := by
      unfold BelowLimit
      decide
    exact absurd hbelow hreached
  have hopened : JudgedStep (blocking 1) (fun _ => .initial) ("s", .opened) (only shellOpened) :=
    ⟨opened_step 1, trivial⟩
  exact ⟨_, .head hopened (.head (only_judged hfirst) (.single (only_judged hsecond)))⟩

/-- With a limit of two, the second dangerous command does not get to the shell. -/
theorem block_mode_blocks_second : (only secondTyped "s").stream = some (units "rm -rf /\n") ∧
    (completedLines false [] (units "rm -rf /\n")).countP dangerous ≤ 2 - 1 := by
  have hstream : (only secondTyped "s").stream = some (units "rm -rf /\n") := by
    rw [stream_only]
    decide
  obtain ⟨trace, hrun⟩ := typed_run
  exact ⟨hstream, block_mode_blocks (blocking 1) rfl hrun "s" hstream⟩

end Sample

end CloudVM.Terminal
