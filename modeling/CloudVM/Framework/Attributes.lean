import Mathlib.Data.List.Basic

/-!
# Attribute texts

A text is a sequence of lines `NAME=value` and `NAME="value"`. Quoted text ends at the first quote
without a backslash before it; a backslash before a backslash or a quote is taken away.
-/

namespace CloudVM.Attributes

/-- Where the reader is, with the name and the value read so far. -/
inductive Place where
  | name (name : List Char)
  | bare (name value : List Char)
  | quoted (name value : List Char)
  | escaped (name value : List Char)
  | closed

def nameChar (c : Char) : Bool := c.isUpper || c.isDigit || c == '_'

def read : Place → List Char → Option (List (List Char × List Char))
  | .name n, [] => if n = [] then some [] else none
  | .name n, c :: text =>
    if nameChar c then read (.name (n ++ [c])) text
    else if c = '=' ∧ n ≠ [] then read (.bare n []) text
    else none
  | .bare n v, [] => some [(n, v)]
  | .bare n v, c :: text =>
    if c = '\n' then (read (.name []) text).map ((n, v) :: ·)
    else if c = '"' ∧ v = [] then read (.quoted n []) text
    else read (.bare n (v ++ [c])) text
  | .quoted _ _, [] => none
  | .quoted n v, c :: text =>
    if c = '"' then (read .closed text).map ((n, v) :: ·)
    else if c = '\\' then read (.escaped n v) text
    else read (.quoted n (v ++ [c])) text
  | .escaped _ _, [] => none
  | .escaped n v, c :: text =>
    if c = '"' ∨ c = '\\' then read (.quoted n (v ++ [c])) text
    else read (.quoted n (v ++ ['\\', c])) text
  | .closed, [] => some []
  | .closed, c :: text => if c = '\n' then read (.name []) text else none

def parse (text : String) : Option (List (String × String)) :=
  (read (.name []) text.toList).map fun attributes =>
    attributes.map fun a => (String.ofList a.1, String.ofList a.2)

def quote (c : Char) : List Char :=
  if c = '\\' then ['\\', '\\'] else if c = '"' then ['\\', '"'] else [c]

/-- A line of a text. A value without quotes stays on its line and does not start with a quote. -/
structure Line where
  name : String
  value : String
  quoted : Bool
  named : name ≠ "" ∧ ∀ c ∈ name.toList, nameChar c = true
  plain : quoted = false → '\n' ∉ value.toList ∧ value.toList.head? ≠ some '"'

def Line.chars (l : Line) : List Char :=
  l.name.toList ++ '=' ::
    if l.quoted then '"' :: (l.value.toList.flatMap quote ++ ['"', '\n']) else l.value.toList ++ ['\n']

section Reading

variable {n v text : List Char}

private theorem read_name (acc : List Char) (h : ∀ c ∈ n, nameChar c = true)
    (hne : acc ++ n ≠ []) :
    read (.name acc) (n ++ '=' :: text) = read (.bare (acc ++ n) []) text := by
  induction n generalizing acc with
  | nil =>
    rw [List.append_nil] at hne ⊢
    have hequals : nameChar '=' = false := by decide
    simp [read, hequals, hne]
  | cons c n ih =>
    have hc : nameChar c = true := h c (by simp)
    have hrest : ∀ d ∈ n, nameChar d = true := fun d hd => h d (by simp [hd])
    rw [List.cons_append, read, if_pos hc, ih (acc ++ [c]) hrest (by simp)]
    simp

private theorem read_bare (acc : List Char) (h : '\n' ∉ v) (hquote : acc = [] → v.head? ≠ some '"') :
    read (.bare n acc) (v ++ '\n' :: text) =
      (read (.name []) text).map ((n, acc ++ v) :: ·) := by
  induction v generalizing acc with
  | nil => simp [read]
  | cons c v ih =>
    rw [List.mem_cons, not_or] at h
    have hline : c ≠ '\n' := Ne.symm h.1
    have hopen : ¬ (c = '"' ∧ acc = []) := by
      intro ⟨hc, hacc⟩
      exact hquote hacc (by simp [hc])
    rw [List.cons_append, read, if_neg hline, if_neg hopen, ih (acc ++ [c]) h.2 (by simp)]
    simp

private theorem read_quoted (acc : List Char) :
    read (.quoted n acc) (v.flatMap quote ++ '"' :: text) =
      (read .closed text).map ((n, acc ++ v) :: ·) := by
  induction v generalizing acc with
  | nil => simp [read]
  | cons c v ih =>
    rw [List.flatMap_cons, List.append_assoc]
    have hnext := ih (acc ++ [c])
    rw [List.append_assoc, List.singleton_append] at hnext
    rw [← hnext]
    by_cases hslash : c = '\\'
    · subst hslash
      simp [quote, read]
    · by_cases hquote : c = '"'
      · subst hquote
        simp [quote, read]
      · simp [quote, read, hslash, hquote]

private theorem read_line (l : Line) :
    read (.name []) (l.chars ++ text) =
      (read (.name []) text).map ((l.name.toList, l.value.toList) :: ·) := by
  have hname : [] ++ l.name.toList ≠ [] := by
    rw [List.nil_append, ne_eq, String.toList_eq_nil_iff]
    exact l.named.1
  rw [Line.chars, List.append_assoc, List.cons_append, read_name [] l.named.2 hname, List.nil_append]
  cases hquoted : l.quoted with
  | false =>
    obtain ⟨hline, hhead⟩ := l.plain hquoted
    simp only [Bool.false_eq_true, if_false, List.append_assoc, List.singleton_append]
    exact read_bare [] hline fun _ => hhead
  | true =>
    simp only [if_true, List.cons_append, List.append_assoc, List.nil_append]
    rw [read, if_neg (by decide), if_pos ⟨rfl, rfl⟩]
    have hvalue : read (.quoted l.name.toList [])
        (l.value.toList.flatMap quote ++ '"' :: '\n' :: text) =
          (read .closed ('\n' :: text)).map ((l.name.toList, [] ++ l.value.toList) :: ·) :=
      read_quoted []
    rw [hvalue]
    simp [read]

end Reading

/-- What is read off the lines are their names with their values. -/
theorem parse_lines (lines : List Line) :
    parse (String.ofList (lines.flatMap Line.chars)) = some (lines.map fun l => (l.name, l.value)) := by
  have hread : read (.name []) (lines.flatMap Line.chars) =
      some (lines.map fun l => (l.name.toList, l.value.toList)) := by
    induction lines with
    | nil => rfl
    | cons l lines ih => rw [List.flatMap_cons, read_line, ih, Option.map_some, List.map_cons]
  rw [parse, String.toList_ofList, hread]
  simp

example : parse "CPU=2\nUSERNAME=\"a\\\"b\"\n" = some [("CPU", "2"), ("USERNAME", "a\"b")] := by
  decide

end CloudVM.Attributes
