import Mathlib.Logic.Basic
import Mathlib.Tactic.Common

/-!
# Comma-separated values

A writer and a reader over any alphabet. The writer puts a field into quotes where it has to and
doubles the quotes in it; the reader is an automaton that takes one character after the other.
Records of two fields or more are read back as they were written. A record with one empty field
is written as a blank line, which is read as a record without fields.
-/

namespace CloudVM.Csv

/-- The characters with a meaning of their own. -/
structure Marks (α : Type) where
  comma : α
  quote : α
  newline : α
  comma_ne_quote : comma ≠ quote
  comma_ne_newline : comma ≠ newline
  newline_ne_quote : newline ≠ quote

inductive Mode where
  | startRecord
  | startField
  | inField
  | inQuotes
  | quoteInQuotes
deriving DecidableEq, Repr

/-- The records read so far, the fields of the current one, and the field under way. -/
structure Reader (α : Type) where
  rows : List (List (List α))
  fields : List (List α)
  field : List α
  mode : Mode

variable {α : Type} [DecidableEq α] (m : Marks α)

section Write

variable (mustQuote : List α → Bool)

def doubled (field : List α) : List α :=
  field.flatMap fun c => if c = m.quote then [c, c] else [c]

def writeField (field : List α) : List α :=
  if mustQuote field then m.quote :: (doubled m field ++ [m.quote]) else field

/-- The fields, each with the mark that follows it. -/
def writeRecord : List (List α) → List α
  | [] => [m.newline]
  | [field] => writeField m mustQuote field ++ [m.newline]
  | field :: next :: fields =>
    writeField m mustQuote field ++ m.comma :: writeRecord (next :: fields)

def write (rows : List (List (List α))) : List α := rows.flatMap (writeRecord m mustQuote)

end Write

section Read

def plain (r : Reader α) (c : α) : Reader α :=
  if c = m.newline then ⟨r.rows ++ [r.fields ++ [r.field]], [], [], .startRecord⟩
  else if c = m.comma then ⟨r.rows, r.fields ++ [r.field], [], .startField⟩
  else ⟨r.rows, r.fields, r.field ++ [c], .inField⟩

def step (r : Reader α) (c : α) : Reader α :=
  match r.mode with
  | .startRecord =>
    if c = m.newline then { r with rows := r.rows ++ [[]] }
    else if c = m.quote then { r with mode := .inQuotes }
    else plain m r c
  | .startField => if c = m.quote then { r with mode := .inQuotes } else plain m r c
  | .inField => plain m r c
  | .inQuotes =>
    if c = m.quote then { r with mode := .quoteInQuotes } else { r with field := r.field ++ [c] }
  | .quoteInQuotes =>
    if c = m.quote then { r with field := r.field ++ [c], mode := .inQuotes } else plain m r c

def run (r : Reader α) (text : List α) : Reader α := text.foldl (step m) r

/-- The records at the end of the text; the last one may lack its newline. -/
def Reader.finish (r : Reader α) : List (List (List α)) :=
  if r.mode = .startRecord then r.rows else r.rows ++ [r.fields ++ [r.field]]

def read (text : List α) : List (List (List α)) :=
  (run m ⟨[], [], [], .startRecord⟩ text).finish

end Read

section RoundTrip

variable {m} {rows : List (List (List α))} {fields : List (List α)} {field : List α}

@[simp] theorem run_nil (r : Reader α) : run m r [] = r := rfl

@[simp] theorem run_cons (r : Reader α) (c : α) (text : List α) :
    run m r (c :: text) = run m (step m r c) text := rfl

theorem run_append (r : Reader α) (text text' : List α) :
    run m r (text ++ text') = run m (run m r text) text' := List.foldl_append

theorem step_comma {mode : Mode} (h : mode ≠ .inQuotes) :
    step m ⟨rows, fields, field, mode⟩ m.comma = ⟨rows, fields ++ [field], [], .startField⟩ := by
  have hq := m.comma_ne_quote
  have hn := m.comma_ne_newline
  cases mode with
  | inQuotes => exact absurd rfl h
  | startRecord => simp [step, plain, hq, hn]
  | startField => simp [step, plain, hq, hn]
  | inField => simp [step, plain, hn]
  | quoteInQuotes => simp [step, plain, hq, hn]

theorem step_newline {mode : Mode} (h : mode ≠ .inQuotes) (hstart : mode ≠ .startRecord) :
    step m ⟨rows, fields, field, mode⟩ m.newline = ⟨rows ++ [fields ++ [field]], [], [], .startRecord⟩ := by
  have hq := m.newline_ne_quote
  cases mode with
  | inQuotes => exact absurd rfl h
  | startRecord => exact absurd rfl hstart
  | startField => simp [step, plain, hq]
  | inField => simp [step, plain]
  | quoteInQuotes => simp [step, plain, hq]

/-- Doubled quotes keep the reader within the quotes. -/
theorem run_doubled (text : List α) :
    run m ⟨rows, fields, field, .inQuotes⟩ (doubled m text) =
      ⟨rows, fields, field ++ text, .inQuotes⟩ := by
  induction text generalizing field with
  | nil => simp [doubled]
  | cons c text ih =>
    have hsplit : doubled m (c :: text) =
        (if c = m.quote then [c, c] else [c]) ++ doubled m text := rfl
    have happend : field ++ c :: text = field ++ [c] ++ text := by simp
    rw [hsplit, run_append, happend, ← ih]
    by_cases hc : c = m.quote
    · simp [hc, step]
    · simp [hc, step]

/-- A text without marks stands for itself. -/
theorem run_bare {text : List α}
    (h : ∀ c ∈ text, c ≠ m.comma ∧ c ≠ m.quote ∧ c ≠ m.newline) :
    run m ⟨rows, fields, field, .inField⟩ text = ⟨rows, fields, field ++ text, .inField⟩ := by
  induction text generalizing field with
  | nil => simp
  | cons c text ih =>
    obtain ⟨hcomma, -, hnewline⟩ := h c (by simp)
    have hrest : run m ⟨rows, fields, field ++ [c], .inField⟩ text =
        ⟨rows, fields, field ++ [c] ++ text, .inField⟩ :=
      ih fun d hd => h d (List.mem_cons_of_mem c hd)
    simp [step, plain, hcomma, hnewline, hrest]

def Careful (m : Marks α) (mustQuote : List α → Bool) : Prop :=
  ∀ text, mustQuote text = false → ∀ c ∈ text, c ≠ m.comma ∧ c ≠ m.quote ∧ c ≠ m.newline

variable {mustQuote : List α → Bool}

theorem run_writeField (rows : List (List (List α))) (fields : List (List α))
    (h : Careful m mustQuote) (text : List α) :
    ∃ mode, mode ≠ .inQuotes ∧ mode ≠ .startRecord ∧
      run m ⟨rows, fields, [], .startField⟩ (writeField m mustQuote text) =
        ⟨rows, fields, text, mode⟩ := by
  cases hquote : mustQuote text with
  | true =>
    refine ⟨.quoteInQuotes, by decide, by decide, ?_⟩
    have hopen : step m ⟨rows, fields, [], .startField⟩ m.quote = ⟨rows, fields, [], .inQuotes⟩ := by
      simp [step]
    rw [writeField, if_pos hquote, run_cons, hopen, run_append, run_doubled]
    simp [step]
  | false =>
    have hbare := h text hquote
    rw [writeField, if_neg (by simp [hquote])]
    cases text with
    | nil => exact ⟨.startField, by decide, by decide, rfl⟩
    | cons c text =>
      obtain ⟨hcomma, hq, hnewline⟩ := hbare c (by simp)
      refine ⟨.inField, by decide, by decide, ?_⟩
      have hfirst : step m ⟨rows, fields, [], .startField⟩ c = ⟨rows, fields, [c], .inField⟩ := by
        simp [step, plain, hcomma, hq, hnewline]
      rw [run_cons, hfirst, run_bare fun d hd => hbare d (List.mem_cons_of_mem c hd)]
      rfl

theorem run_writeRecord (h : Careful m mustQuote) {texts : List (List α)} (hne : texts ≠ []) :
    run m ⟨rows, fields, [], .startField⟩ (writeRecord m mustQuote texts) =
      ⟨rows ++ [fields ++ texts], [], [], .startRecord⟩ := by
  induction texts generalizing fields with
  | nil => exact absurd rfl hne
  | cons text texts ih =>
    obtain ⟨mode, hquotes, hstart, hrun⟩ := run_writeField rows fields h text
    cases texts with
    | nil =>
      rw [writeRecord, run_append, hrun, run_cons, step_newline hquotes hstart]
      rfl
    | cons next texts =>
      rw [writeRecord, run_append, hrun, run_cons, step_comma hquotes, ih (by simp)]
      simp

theorem mem_writeField {text : List α} {c : α} (h : c ∈ writeField m mustQuote text) :
    c = m.quote ∨ c ∈ text := by
  rw [writeField] at h
  split at h
  · simp only [doubled, List.mem_cons, List.mem_append, List.mem_flatMap, List.not_mem_nil,
      or_false] at h
    rcases h with h | ⟨d, hd, hc⟩ | h
    · exact .inl h
    · split at hc
      · rename_i hquote
        simp only [List.mem_cons, List.not_mem_nil, or_false, or_self] at hc
        exact .inl (hc.trans hquote)
      · rw [List.mem_singleton] at hc
        exact .inr (hc ▸ hd)
    · exact .inl h
  · exact .inr h

theorem mem_writeRecord {texts : List (List α)} {c : α} (h : c ∈ writeRecord m mustQuote texts) :
    c = m.comma ∨ c = m.quote ∨ c = m.newline ∨ ∃ text ∈ texts, c ∈ text := by
  induction texts with
  | nil =>
    rw [writeRecord, List.mem_singleton] at h
    exact .inr (.inr (.inl h))
  | cons text texts ih =>
    have hfield : c ∈ writeField m mustQuote text → c = m.comma ∨ c = m.quote ∨ c = m.newline ∨
        ∃ x ∈ text :: texts, c ∈ x := by
      intro hc
      rcases mem_writeField hc with hc | hc
      · exact .inr (.inl hc)
      · exact .inr (.inr (.inr ⟨text, by simp, hc⟩))
    cases texts with
    | nil =>
      rw [writeRecord, List.mem_append, List.mem_singleton] at h
      rcases h with h | h
      · exact hfield h
      · exact .inr (.inr (.inl h))
    | cons next texts =>
      rw [writeRecord, List.mem_append, List.mem_cons] at h
      rcases h with h | h | h
      · exact hfield h
      · exact .inl h
      · rcases ih h with h | h | h | ⟨x, hx, hc⟩
        · exact .inl h
        · exact .inr (.inl h)
        · exact .inr (.inr (.inl h))
        · exact .inr (.inr (.inr ⟨x, List.mem_cons_of_mem text hx, hc⟩))

theorem mem_write {records : List (List (List α))} {c : α} (h : c ∈ write m mustQuote records) :
    c = m.comma ∨ c = m.quote ∨ c = m.newline ∨ ∃ texts ∈ records, ∃ text ∈ texts, c ∈ text := by
  obtain ⟨texts, htexts, hc⟩ := List.mem_flatMap.mp h
  rcases mem_writeRecord hc with hc | hc | hc | ⟨text, htext, hc⟩
  · exact .inl hc
  · exact .inr (.inl hc)
  · exact .inr (.inr (.inl hc))
  · exact .inr (.inr (.inr ⟨texts, htexts, text, htext, hc⟩))

/-- A record may start wherever a field may, unless it is a blank line. -/
theorem run_startRecord {c : α} (hc : c ≠ m.newline) (text : List α) :
    run m ⟨rows, [], [], .startRecord⟩ (c :: text) = run m ⟨rows, [], [], .startField⟩ (c :: text) := by
  simp [step, plain, hc]

theorem writeRecord_cons (h : Careful m mustQuote) {texts : List (List α)} (hlen : 2 ≤ texts.length) :
    ∃ c text, writeRecord m mustQuote texts = c :: text ∧ c ≠ m.newline := by
  match texts, hlen with
  | first :: next :: rest, _ =>
    rw [writeRecord, writeField]
    cases hquote : mustQuote first with
    | true => exact ⟨_, _, rfl, m.newline_ne_quote.symm⟩
    | false =>
      cases first with
      | nil => exact ⟨_, _, rfl, m.comma_ne_newline⟩
      | cons c first => exact ⟨_, _, rfl, (h _ hquote c (by simp)).2.2⟩

theorem run_write (h : Careful m mustQuote) {records : List (List (List α))}
    (hlen : ∀ texts ∈ records, 2 ≤ texts.length) :
    run m ⟨rows, [], [], .startRecord⟩ (write m mustQuote records) =
      ⟨rows ++ records, [], [], .startRecord⟩ := by
  induction records generalizing rows with
  | nil => simp [write]
  | cons texts records ih =>
    have htexts : 2 ≤ texts.length := hlen texts (by simp)
    have hne : texts ≠ [] := by
      intro hnil
      simp [hnil] at htexts
    have hsplit : write m mustQuote (texts :: records) =
        writeRecord m mustQuote texts ++ write m mustQuote records := rfl
    have hrecord : run m ⟨rows, [], [], .startRecord⟩ (writeRecord m mustQuote texts) =
        ⟨rows ++ [texts], [], [], .startRecord⟩ := by
      obtain ⟨c, text, heq, hc⟩ := writeRecord_cons h htexts
      rw [heq, run_startRecord hc, ← heq, run_writeRecord h hne]
      rfl
    have hrest : ∀ x ∈ records, 2 ≤ x.length := fun x hx => hlen x (List.mem_cons_of_mem texts hx)
    rw [hsplit, run_append, hrecord, ih hrest]
    simp

/-- Records of two fields or more are read as they were written. -/
theorem read_write (h : Careful m mustQuote) {records : List (List (List α))}
    (hlen : ∀ texts ∈ records, 2 ≤ texts.length) : read m (write m mustQuote records) = records := by
  rw [read, run_write h hlen]
  rfl

end RoundTrip

end CloudVM.Csv
