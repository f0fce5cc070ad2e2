import CloudVM.Framework.Run
import CloudVM.Terminal.Commands
import Mathlib.Logic.Function.Basic

/-!
# The terminal gateway

What the gateway does with the keystrokes a client sends: the limits on size and rate, the line
buffer in which submitted commands are put together again and inspected, and the write to the
SSH stream.
-/

namespace CloudVM.Terminal

open Lines

section State

def maxInputBytesPerEvent : ℕ := 4096

def maxInputBytesPerSecond : ℕ := 32768

def maxInputEventsPerSecond : ℕ := 100

def maxCommandBufferChars : ℕ := 8192

inductive InputMode where
  | block
  | audit
deriving DecidableEq, Repr

structure Settings where
  dangerousInputMode : InputMode
  dangerousInputMaxViolations : ℕ
  one_le : 1 ≤ dangerousInputMaxViolations

structure InputWindow where
  windowStartMs : ℤ
  bytesInWindow : ℕ
deriving DecidableEq, Repr

structure EventWindow where
  windowStartMs : ℤ
  eventsInWindow : ℕ
deriving DecidableEq, Repr

/-- What is left of a line that is not ended by `\n`. -/
structure CommandBuffer where
  text : Units
  clear : Clear isLf text
  short : text.length ≤ maxCommandBufferChars

def CommandBuffer.empty : CommandBuffer := ⟨[], by simp [Clear], by simp⟩

/-- The last part of a text that is split at `\r?\n`. -/
def CommandBuffer.tail (text : Units) : CommandBuffer where
  text := sliceLast maxCommandBufferChars (unended isLf [] text)
  clear := (Clear.unended (by simp [Clear]) text).subset (sliceLast_subset _ _)
  short := length_sliceLast_le _ _

/-- What the gateway keeps for one socket. The open SSH stream is what has been written to it. -/
structure Socket where
  stream : Option Units
  inputWindow : Option InputWindow
  eventWindow : Option EventWindow
  commandBuffer : CommandBuffer
  dangerousInputViolations : ℕ

def Socket.initial : Socket := ⟨none, none, none, .empty, 0⟩

inductive InputReply where
  | ignored
  | rejected (message : String)
  | disconnected (message : String)
  | blocked
  | written
deriving DecidableEq, Repr

end State

section Handlers

variable (settings : Settings) (x : Socket) (now : ℤ)

def allowInputRate (incomingBytes : ℕ) : Bool × Socket :=
  let opened : Bool × Socket :=
    (incomingBytes ≤ maxInputBytesPerSecond, { x with inputWindow := some ⟨now, incomingBytes⟩ })
  match x.inputWindow with
  | none => opened
  | some current =>
      if now - current.windowStartMs ≥ 1000 then opened
      else
        let nextBytes := current.bytesInWindow + incomingBytes
        if nextBytes > maxInputBytesPerSecond then (false, x)
        else (true, { x with inputWindow := some { current with bytesInWindow := nextBytes } })

def allowInputEventRate : Bool × Socket :=
  let opened : Bool × Socket := (true, { x with eventWindow := some ⟨now, 1⟩ })
  match x.eventWindow with
  | none => opened
  | some current =>
      if now - current.windowStartMs ≥ 1000 then opened
      else
        let eventsInWindow := current.eventsInWindow + 1
        (eventsInWindow ≤ maxInputEventsPerSecond,
          { x with eventWindow := some { current with eventsInWindow } })

/-- The loop over the submitted commands, with the violations so far. -/
def countViolations : List Units → ℕ → Bool × ℕ
  | [], violations => (true, violations)
  | segment :: rest, violations =>
      let candidate := trim segment
      if candidate = [] then countViolations rest violations
      else if matchesPattern (collapseSpace candidate) then
        let nextViolations := violations + 1
        if settings.dangerousInputMode = .block ∧
            settings.dangerousInputMaxViolations ≤ nextViolations then (false, nextViolations)
        else countViolations rest nextViolations
      else countViolations rest violations

def inspectSubmittedCommands (data : Units) : Bool × Socket :=
  let combined := sliceLast maxCommandBufferChars (x.commandBuffer.text ++ data)
  let judged := countViolations settings (segments combined) x.dangerousInputViolations
  (judged.1, { x with commandBuffer := .tail combined, dangerousInputViolations := judged.2 })

/-- `data` is missing if it is no string; `now` is read twice. -/
def handleInput (data : Option Units) (now now' : ℤ) : InputReply × Socket :=
  match x.stream, data with
  | none, _ => (.ignored, x)
  | some _, none => (.rejected "Invalid terminal input", x)
  | some written, some data =>
      if byteLength data = 0 then (.ignored, x)
      else if byteLength data > maxInputBytesPerEvent then (.rejected "Input chunk too large", x)
      else
        let rated := allowInputRate x now (byteLength data)
        if !rated.1 then (.rejected "Input rate too high", rated.2)
        else
          let counted := allowInputEventRate rated.2 now'
          if !counted.1 then (.disconnected "Too many terminal input events", counted.2)
          else
            let inspected := inspectSubmittedCommands settings counted.2 data
            if inspected.1 then (.written, { inspected.2 with stream := some (written ++ data) })
            else (.blocked, inspected.2)

end Handlers

section Steps

/-- An input event, a shell that has opened, or the end of a session. -/
inductive TerminalEvent where
  | input (data : Option Units) (now now' : ℤ)
  | opened
  | cleanupSession

def Socket.after (settings : Settings) (x : Socket) : TerminalEvent → Socket
  | .input data now now' => (handleInput settings x data now now').2
  | .opened => { x with stream := some [] }
  | .cleanupSession => .initial

/-- The sockets, by their ids. -/
abbrev TerminalGateway := String → Socket

def TerminalStep (settings : Settings) (g : TerminalGateway) (l : String × TerminalEvent)
    (g' : TerminalGateway) : Prop :=
  g' = Function.update g l.1 ((g l.1).after settings l.2)

end Steps

end CloudVM.Terminal
