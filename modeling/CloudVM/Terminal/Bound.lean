import CloudVM.Framework.Windows
import CloudVM.Terminal.Gateway

/-!
# How much a terminal writes

The bytes and the events of a socket are counted in windows of a second, each with a start of its
own. A chunk that is refused for the number of events has been charged for its bytes.
-/

namespace CloudVM.Terminal

section Limits

variable (x : Socket)

def byteWindow : Option Window := x.inputWindow.map fun w => ⟨w.windowStartMs, w.bytesInWindow⟩

def countWindow : Option Window := x.eventWindow.map fun w => ⟨w.windowStartMs, w.eventsInWindow⟩

private theorem allowInputRate_step {now : ℤ} {bytes weight : ℕ} (hweight : weight ≤ bytes)
    (hpass : weight ≠ 0 → (allowInputRate x now bytes).1 = true) (done : ℤ) :
    Window.Step 1000 maxInputBytesPerSecond (byteWindow x) ⟨now, done, weight⟩
      (byteWindow (allowInputRate x now bytes).2) := by
  unfold allowInputRate byteWindow at *
  cases hw : x.inputWindow with
  | none =>
    simp only [hw, decide_eq_true_eq] at hpass
    exact .opened bytes hweight hpass (by simp)
  | some current =>
    simp only [hw] at hpass
    by_cases hover : now - current.windowStartMs ≥ 1000
    · simp only [hover, if_true, decide_eq_true_eq] at hpass ⊢
      refine .opened bytes hweight hpass ?_
      intro v hv
      cases hv
      simp only
      omega
    · simp only [hover, if_false] at hpass ⊢
      by_cases hfull : current.bytesInWindow + bytes > maxInputBytesPerSecond
      · simp only [hfull, if_true, hw] at hpass ⊢
        refine .idle ?_
        by_contra hne
        cases hpass hne
      · simp only [hfull, if_false]
        exact .joined bytes hweight fun _ => by simp only; omega

private theorem allowInputEventRate_step {now : ℤ} {weight : ℕ} (hweight : weight ≤ 1)
    (hpass : weight ≠ 0 → (allowInputEventRate x now).1 = true) (done : ℤ) :
    Window.Step 1000 maxInputEventsPerSecond (countWindow x) ⟨now, done, weight⟩
      (countWindow (allowInputEventRate x now).2) := by
  have hone : (1 : ℕ) ≤ maxInputEventsPerSecond := by decide
  unfold allowInputEventRate countWindow at *
  cases hw : x.eventWindow with
  | none => exact .opened 1 hweight (fun _ => hone) (by simp)
  | some current =>
    simp only [hw] at hpass
    by_cases hover : now - current.windowStartMs ≥ 1000
    · simp only [hover, if_true]
      refine .opened 1 hweight (fun _ => hone) ?_
      intro v hv
      cases hv
      simp only
      omega
    · simp only [hover, if_false, decide_eq_true_eq] at hpass ⊢
      exact .joined 1 hweight hpass

private theorem allowInputRate_countWindow (now : ℤ) (bytes : ℕ) :
    countWindow (allowInputRate x now bytes).2 = countWindow x := by
  simp only [allowInputRate]
  split
  · rfl
  · split
    · rfl
    · split <;> rfl

private theorem allowInputEventRate_byteWindow (now : ℤ) :
    byteWindow (allowInputEventRate x now).2 = byteWindow x := by
  simp only [allowInputEventRate]
  split
  · rfl
  · split <;> rfl

end Limits

section Events

variable (settings : Settings)

/-- An event and the time at which its handler is done with it. -/
abbrev TimedEvent := TerminalEvent × ℤ

/-- Events between two cleanups, on a clock that does not go back. -/
def Timely : ℤ → List TimedEvent → Prop
  | _, [] => True
  | clock, (.input _ now now', done) :: es =>
      clock ≤ now ∧ now ≤ now' ∧ now' ≤ done ∧ Timely done es
  | clock, (.opened, done) :: es => clock ≤ done ∧ Timely done es
  | _, (.cleanupSession, _) :: _ => False

def Socket.afterAll (x : Socket) (es : List TimedEvent) : Socket :=
  es.foldl (fun y e => y.after settings e.1) x

/-- What the event writes to the SSH stream, and when. -/
def chunk (x : Socket) : TimedEvent → Option (Units × ℤ)
  | (.input (some data) now now', done) =>
      if (handleInput settings x (some data) now now').1 = .written then some (data, done) else none
  | _ => none

def chunks : Socket → List TimedEvent → List (Units × ℤ)
  | _, [] => []
  | x, e :: es => (chunk settings x e).toList ++ chunks (x.after settings e.1) es

def states : Socket → List TimedEvent → List Socket
  | x, [] => [x]
  | x, e :: es => x :: states (x.after settings e.1) es

/-- The chunks that are written in the second from `a` on. -/
def within (a : ℤ) (cs : List (Units × ℤ)) : List (Units × ℤ) :=
  cs.filter fun c => a ≤ c.2 ∧ c.2 < a + 1000

def chunkBytes (c : Units × ℤ) : ℕ := byteLength c.1

/-- The request of an event to the limiter of the bytes. -/
def bytePassage (x : Socket) (e : TimedEvent) : Passage where
  checked := match e.1 with
    | .input _ now _ => now
    | _ => e.2
  done := e.2
  weight := ((chunk settings x e).map chunkBytes).getD 0

/-- The request of an event to the limiter of the events. -/
def countPassage (x : Socket) (e : TimedEvent) : Passage where
  checked := match e.1 with
    | .input _ _ now' => now'
    | _ => e.2
  done := e.2
  weight := (chunk settings x e).toList.length

/-- What an event does to the windows. -/
inductive Charges (x : Socket) (text : Units) (now now' : ℤ) (reply : InputReply) (y : Socket) : Prop
  | refused (hreply : reply ≠ .written) (hcount : countWindow y = countWindow x)
      (hbytes : byteWindow y = byteWindow (allowInputRate x now (byteLength text)).2)
  | admitted (hreply : reply = .written → (allowInputRate x now (byteLength text)).1 = true ∧
        (allowInputEventRate (allowInputRate x now (byteLength text)).2 now').1 = true)
      (hcount : countWindow y =
        countWindow (allowInputEventRate (allowInputRate x now (byteLength text)).2 now').2)
      (hbytes : byteWindow y = byteWindow (allowInputRate x now (byteLength text)).2)

private theorem handleInput_charges (x : Socket) (data : Option Units) (now now' : ℤ) :
    ((handleInput settings x data now now').1 ≠ .written ∧
        byteWindow (handleInput settings x data now now').2 = byteWindow x ∧
        countWindow (handleInput settings x data now now').2 = countWindow x) ∨
      ∃ text, data = some text ∧ byteLength text ≤ maxInputBytesPerEvent ∧
        Charges x text now now' (handleInput settings x data now now').1
          (handleInput settings x data now now').2 := by
  cases hstream : x.stream with
  | none => simp [handleInput, hstream]
  | some sent =>
    cases data with
    | none => simp [handleInput, hstream]
    | some text =>
      simp only [handleInput, hstream]
      by_cases hempty : byteLength text = 0
      · simp [hempty]
      by_cases hlarge : byteLength text > maxInputBytesPerEvent
      · simp [hempty, hlarge]
      right
      refine ⟨text, rfl, by omega, ?_⟩
      simp only [hempty, hlarge, if_false]
      cases hrate : (allowInputRate x now (byteLength text)).1 with
      | false => exact .refused (by simp) (allowInputRate_countWindow x now _) rfl
      | true =>
        have hbytes := allowInputEventRate_byteWindow (allowInputRate x now (byteLength text)).2 now'
        cases hcount : (allowInputEventRate (allowInputRate x now (byteLength text)).2 now').1 with
        | false => exact .admitted (by simp) rfl hbytes
        | true =>
          simp only [Bool.not_true, Bool.false_eq_true, if_false]
          split
          · exact .admitted (fun _ => ⟨hrate, hcount⟩) rfl hbytes
          · exact .admitted (fun _ => ⟨hrate, hcount⟩) rfl hbytes

private theorem chunk_input {x : Socket} {data : Option Units} {now now' done : ℤ} {c : Units × ℤ}
    (h : chunk settings x (.input data now now', done) = some c) :
    data = some c.1 ∧ (handleInput settings x data now now').1 = .written := by
  cases data with
  | none => cases h
  | some text =>
    simp only [chunk] at h
    split at h
    · rename_i hwritten
      cases h
      exact ⟨rfl, hwritten⟩
    · cases h

private theorem chunk_done {x : Socket} {e : TimedEvent} {c : Units × ℤ}
    (h : chunk settings x e = some c) : c.2 = e.2 := by
  obtain ⟨event, done⟩ := e
  cases event with
  | input data now now' =>
    cases data with
    | none => cases h
    | some text =>
      simp only [chunk] at h
      split at h
      · cases h
        rfl
      · cases h
  | opened => cases h
  | cleanupSession => cases h

theorem chunk_bytes {x : Socket} {e : TimedEvent} {c : Units × ℤ} (h : chunk settings x e = some c) :
    chunkBytes c ≤ maxInputBytesPerEvent := by
  obtain ⟨event, done⟩ := e
  cases event with
  | input data now now' =>
    obtain ⟨rfl, hwritten⟩ := chunk_input settings h
    rcases handleInput_charges settings x (some c.1) now now' with ⟨hreply, -⟩ | ⟨text, htext, hle, -⟩
    · exact absurd hwritten hreply
    · cases htext
      exact hle
  | opened => cases h
  | cleanupSession => cases h

private theorem event_steps (x : Socket) {e : TimedEvent} (he : e.1 ≠ .cleanupSession) :
    Window.Step 1000 maxInputBytesPerSecond (byteWindow x) (bytePassage settings x e)
        (byteWindow (x.after settings e.1)) ∧
      Window.Step 1000 maxInputEventsPerSecond (countWindow x) (countPassage settings x e)
        (countWindow (x.after settings e.1)) := by
  obtain ⟨event, done⟩ := e
  cases event with
  | cleanupSession => exact absurd rfl he
  | opened => exact ⟨.idle rfl, .idle rfl⟩
  | input data now now' =>
    simp only [Socket.after]
    have hrated := allowInputRate_countWindow x now
    cases hchunk : chunk settings x (.input data now now', done) with
    | none =>
      have hbytes : bytePassage settings x (.input data now now', done) = ⟨now, done, 0⟩ := by
        simp [bytePassage, hchunk]
      have hcount : countPassage settings x (.input data now now', done) = ⟨now', done, 0⟩ := by
        simp [countPassage, hchunk]
      rw [hbytes, hcount]
      rcases handleInput_charges settings x data now now' with ⟨-, hb, hc⟩ | ⟨text, rfl, -, hcharges⟩
      · rw [hb, hc]
        exact ⟨.idle rfl, .idle rfl⟩
      · cases hcharges with
        | refused hreply hc hb =>
          rw [hb, hc]
          exact ⟨allowInputRate_step x (Nat.zero_le _) (by simp) done, .idle rfl⟩
        | admitted hreply hc hb =>
          rw [hb, hc, ← hrated]
          exact ⟨allowInputRate_step x (Nat.zero_le _) (by simp) done,
            allowInputEventRate_step _ (Nat.zero_le _) (by simp) done⟩
    | some c =>
      obtain ⟨rfl, hwritten⟩ := chunk_input settings hchunk
      have hbytes : bytePassage settings x (.input (some c.1) now now', done) =
          ⟨now, done, byteLength c.1⟩ := by
        simp [bytePassage, hchunk, chunkBytes]
      have hcount : countPassage settings x (.input (some c.1) now now', done) = ⟨now', done, 1⟩ := by
        simp [countPassage, hchunk]
      rw [hbytes, hcount]
      rcases handleInput_charges settings x (some c.1) now now' with
        ⟨hreply, -, -⟩ | ⟨text, htext, -, hcharges⟩
      · exact absurd hwritten hreply
      · cases htext
        cases hcharges with
        | refused hreply hc hb => exact absurd hwritten hreply
        | admitted hreply hc hb =>
          obtain ⟨hrate, hevents⟩ := hreply hwritten
          rw [hb, hc, ← hrated]
          exact ⟨allowInputRate_step x le_rfl (fun _ => hrate) done,
            allowInputEventRate_step _ le_rfl (fun _ => hevents) done⟩

end Events

section Sessions

variable (settings : Settings)

/-- The passages of a run of events, one for each event. -/
def passages (passage : Socket → TimedEvent → Passage) : Socket → List TimedEvent → List Passage
  | _, [] => []
  | x, e :: es => passage x e :: passages passage (x.after settings e.1) es

private theorem passages_steps {es : List TimedEvent} {clock : ℤ} (h : Timely clock es) (x : Socket) :
    Window.Steps 1000 maxInputBytesPerSecond (byteWindow x) clock
        (passages settings (bytePassage settings) x es) ∧
      Window.Steps 1000 maxInputEventsPerSecond (countWindow x) clock
        (passages settings (countPassage settings) x es) := by
  induction es generalizing clock x with
  | nil => exact ⟨trivial, trivial⟩
  | cons e es ih =>
    obtain ⟨event, done⟩ := e
    cases event with
    | cleanupSession => exact h.elim
    | opened =>
      obtain ⟨hclock, hrest⟩ := h
      obtain ⟨hbytes, hcount⟩ := event_steps settings x (e := (.opened, done)) (by simp)
      obtain ⟨hbytes', hcount'⟩ := ih hrest (x.after settings .opened)
      exact ⟨⟨hclock, le_rfl, _, hbytes, hbytes'⟩, ⟨hclock, le_rfl, _, hcount, hcount'⟩⟩
    | input data now now' =>
      obtain ⟨hnow, hnow', hdone, hrest⟩ := h
      obtain ⟨hbytes, hcount⟩ :=
        event_steps settings x (e := (.input data now now', done)) (by simp)
      obtain ⟨hbytes', hcount'⟩ := ih hrest (x.after settings (.input data now now'))
      exact ⟨⟨hnow, hnow'.trans hdone, _, hbytes, hbytes'⟩,
        ⟨hnow.trans hnow', hdone, _, hcount, hcount'⟩⟩

private theorem within_bytes (a : ℤ) (x : Socket) (es : List TimedEvent) :
    ((within a (chunks settings x es)).map chunkBytes).sum =
      ((passages settings (bytePassage settings) x es).map (Window.counted a 1000)).sum := by
  induction es generalizing x with
  | nil => rfl
  | cons e es ih =>
    have hrest := ih (x.after settings e.1)
    unfold within at hrest ⊢
    simp only [chunks, passages, List.filter_append, List.map_append, List.sum_append, List.map_cons,
      List.sum_cons, hrest]
    cases hchunk : chunk settings x e with
    | none => simp [Window.counted, bytePassage, hchunk]
    | some c =>
      have hdone := chunk_done settings hchunk
      by_cases hin : a ≤ e.2 ∧ e.2 < a + 1000
      · simp [Window.counted, bytePassage, hchunk, hdone, hin]
      · simp [Window.counted, bytePassage, hchunk, hdone, hin]

private theorem within_length (a : ℤ) (x : Socket) (es : List TimedEvent) :
    (within a (chunks settings x es)).length =
      ((passages settings (countPassage settings) x es).map (Window.counted a 1000)).sum := by
  induction es generalizing x with
  | nil => rfl
  | cons e es ih =>
    have hrest := ih (x.after settings e.1)
    unfold within at hrest ⊢
    simp only [chunks, passages, List.filter_append, List.length_append, List.map_cons,
      List.sum_cons, hrest]
    cases hchunk : chunk settings x e with
    | none => simp [Window.counted, countPassage, hchunk]
    | some c =>
      have hdone := chunk_done settings hchunk
      by_cases hin : a ≤ e.2 ∧ e.2 < a + 1000
      · simp [Window.counted, countPassage, hchunk, hdone, hin]
      · simp [Window.counted, countPassage, hchunk, hdone, hin]

private theorem chunks_bytes {x : Socket} {es : List TimedEvent} {c : Units × ℤ}
    (h : c ∈ chunks settings x es) : chunkBytes c ≤ maxInputBytesPerEvent := by
  induction es generalizing x with
  | nil => cases h
  | cons e es ih =>
    rcases List.mem_append.mp h with h | h
    · exact chunk_bytes settings (Option.mem_toList.mp h)
    · exact ih h

private theorem limited_stream (x : Socket) (now now' : ℤ) (bytes : ℕ) :
    (allowInputEventRate (allowInputRate x now bytes).2 now').2.stream = x.stream ∧
      (allowInputRate x now bytes).2.stream = x.stream := by
  have hrate : ∀ y : Socket, (allowInputRate y now bytes).2.stream = y.stream := by
    intro y
    simp only [allowInputRate]
    split
    · rfl
    · split
      · rfl
      · split <;> rfl
  have hcount : ∀ y : Socket, (allowInputEventRate y now').2.stream = y.stream := by
    intro y
    simp only [allowInputEventRate]
    split
    · rfl
    · split <;> rfl
  exact ⟨(hcount _).trans (hrate x), hrate x⟩

private theorem handleInput_stream (x : Socket) (data : Option Units) (now now' done : ℤ) :
    (handleInput settings x data now now').2.stream = x.stream.map fun sent =>
      sent ++ ((chunk settings x (.input data now now', done)).map Prod.fst).getD [] := by
  cases hstream : x.stream with
  | none => simp [handleInput, hstream]
  | some sent =>
    cases data with
    | none => simp [handleInput, hstream, chunk]
    | some text =>
      obtain ⟨hcounted, hrated⟩ := limited_stream x now now' (byteLength text)
      simp only [chunk, handleInput, hstream]
      split
      · simp [hstream]
      split
      · simp [hstream]
      split
      · simp [hrated, hstream]
      split
      · simp [hcounted, hstream]
      split
      · simp
      · simp [inspectSubmittedCommands, hcounted, hstream]

/-- While no other shell is opened, the stream gets the chunks and nothing else. -/
theorem stream_chunks {es : List TimedEvent} (x : Socket)
    (h : ∀ e ∈ es, ∃ data now now', e.1 = .input data now now') :
    (x.afterAll settings es).stream =
      x.stream.map fun sent => sent ++ (chunks settings x es).flatMap Prod.fst := by
  unfold Socket.afterAll
  induction es generalizing x with
  | nil => simp [chunks]
  | cons e es ih =>
    obtain ⟨event, done⟩ := e
    obtain ⟨data, now, now', rfl⟩ := h (event, done) List.mem_cons_self
    have hrest := ih (x.after settings (.input data now now')) fun e he =>
      h e (List.mem_cons_of_mem _ he)
    have hfirst := handleInput_stream settings x data now now' done
    rw [List.foldl_cons, hrest, chunks, List.flatMap_append]
    simp only [Socket.after, hfirst]
    cases x.stream with
    | none => rfl
    | some sent =>
      cases chunk settings x (.input data now now', done) <;> simp

/-- The limits on what is written from a state on. Between two shells that open, the stream gets the
chunks, one after the other, and nothing else. -/
structure InputBounded (x : Socket) (es : List TimedEvent) : Prop where
  stream : ∀ before inputs after, es = before ++ inputs ++ after →
    (∀ e ∈ inputs, ∃ data now now', e.1 = .input data now now') →
      (x.afterAll settings (before ++ inputs)).stream =
        (x.afterAll settings before).stream.map fun sent =>
          sent ++ (chunks settings (x.afterAll settings before) inputs).flatMap Prod.fst
  chunk : ∀ c ∈ chunks settings x es, chunkBytes c ≤ 4096
  bytes : ∀ a, ((within a (chunks settings x es)).map chunkBytes).sum ≤ 65536
  chunks : ∀ a, (within a (chunks settings x es)).length ≤ 200
  tail : ∀ y ∈ states settings x es, y.commandBuffer.text.length ≤ 8192

/-- Terminal input is bounded, whatever is sent and whenever. -/
theorem input_bounded {es : List TimedEvent} {clock : ℤ} (h : Timely clock es) (x : Socket) :
    InputBounded settings x es := by
  obtain ⟨hbytes, hcount⟩ := passages_steps settings h x
  constructor
  · intro before inputs after _ hinputs
    rw [Socket.afterAll, List.foldl_append]
    exact stream_chunks settings (x.afterAll settings before) hinputs
  · intro c hc
    exact chunks_bytes settings hc
  · intro a
    rw [within_bytes]
    exact hbytes.counted_le a
  · intro a
    rw [within_length]
    exact hcount.counted_le a
  · intro y _
    exact y.commandBuffer.short

def typed : List TimedEvent :=
  [(.opened, 0), (.input (some (units "ls")) 5 5, 6), (.input (some (units "\r")) 900 901, 901)]

theorem input_bounded_typed : InputBounded ⟨.audit, 1, le_rfl⟩ .initial typed := by
  have htimely : Timely 0 typed := by simp [typed, Timely]
  exact input_bounded ⟨.audit, 1, le_rfl⟩ htimely .initial

end Sessions

end CloudVM.Terminal
