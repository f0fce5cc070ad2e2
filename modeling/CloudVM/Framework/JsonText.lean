import CloudVM.Framework.Json
import Mathlib.Data.Int.Notation
import Mathlib.Data.List.TakeWhile
import Mathlib.Tactic.Common

/-!
# JSON texts

A reader of JSON texts that goes through them once: characters to tokens, tokens to a value with
a stack of what is still open. Writers may differ in the blanks after commas and colons and in the
characters they write as they are; what any of them writes of a flat object is read back.
-/

namespace CloudVM.JsonText

section Units

def units (c : Char) : List ℕ :=
  if c.toNat < 0x10000 then [c.toNat]
  else [0xd800 + (c.toNat - 0x10000) / 0x400, 0xdc00 + (c.toNat - 0x10000) % 0x400]

/-- A code unit on its own; half a character is U+FFFD. -/
def unitChar (u : ℕ) : Char := if u.isValidChar then Char.ofNat u else Char.ofNat 0xfffd

def ofUnits : List ℕ → List Char
  | [] => []
  | [u] => [unitChar u]
  | u :: v :: rest =>
    if 0xd800 ≤ u ∧ u < 0xdc00 ∧ 0xdc00 ≤ v ∧ v < 0xe000 then
      Char.ofNat (0x10000 + (u - 0xd800) * 0x400 + (v - 0xdc00)) :: ofUnits rest
    else unitChar u :: ofUnits (v :: rest)

theorem char_range (c : Char) : c.toNat < 0xd800 ∨ 0xdfff < c.toNat ∧ c.toNat < 0x110000 := c.valid

theorem unitChar_toNat (c : Char) : unitChar c.toNat = c := by
  have hvalid : c.toNat.isValidChar := c.valid
  rw [unitChar, if_pos hvalid, Char.ofNat_toNat]

theorem ofUnits_units (c : Char) (us : List ℕ) : ofUnits (units c ++ us) = c :: ofUnits us := by
  rw [units]
  split
  · rename_i hsmall
    cases us with
    | nil => simp [ofUnits, unitChar_toNat]
    | cons v us =>
      have hrange := char_range c
      have hno : ¬ (0xd800 ≤ c.toNat ∧ c.toNat < 0xdc00 ∧ 0xdc00 ≤ v ∧ v < 0xe000) := by omega
      simp only [List.singleton_append, ofUnits, if_neg hno, unitChar_toNat]
  · rename_i hbig
    have hrange := char_range c
    have hpair : 0xd800 ≤ 0xd800 + (c.toNat - 0x10000) / 0x400 ∧
        0xd800 + (c.toNat - 0x10000) / 0x400 < 0xdc00 ∧
        0xdc00 ≤ 0xdc00 + (c.toNat - 0x10000) % 0x400 ∧
        0xdc00 + (c.toNat - 0x10000) % 0x400 < 0xe000 := by omega
    have hcode : 0x10000 + (0xd800 + (c.toNat - 0x10000) / 0x400 - 0xd800) * 0x400 +
        (0xdc00 + (c.toNat - 0x10000) % 0x400 - 0xdc00) = c.toNat := by omega
    simp only [List.cons_append, List.nil_append, ofUnits, if_pos hpair, hcode, Char.ofNat_toNat]

theorem ofUnits_text (cs : List Char) : ofUnits (cs.flatMap units) = cs := by
  induction cs with
  | nil => rfl
  | cons c cs ih => rw [List.flatMap_cons, ofUnits_units, ih]

theorem units_lt {c : Char} {u : ℕ} (h : u ∈ units c) : u < 0x10000 := by
  have hrange := char_range c
  rw [units] at h
  split at h
  · rename_i hsmall
    rw [List.mem_singleton] at h
    omega
  · rcases List.mem_cons.mp h with rfl | h
    · omega
    · rw [List.mem_singleton] at h
      omega

end Units

section Reader

inductive Token where
  | openObject
  | closeObject
  | openArray
  | closeArray
  | comma
  | colon
  | str (s : String)
  | scalar (v : Value)
deriving DecidableEq, Repr

/-- Where in a token the reader is. -/
inductive Mode where
  | idle
  | word (letters : List Char)
  | text (us : List ℕ)
  | escape (us : List ℕ)
  | hex (us : List ℕ) (more u : ℕ)
deriving DecidableEq, Repr

def isBlank (c : Char) : Bool := c = ' ' || c = '\t' || c = '\n' || c = '\r'

/-- The characters of numbers and of literal names. -/
def isWordChar (c : Char) : Bool := c.isAlphanum || c = '-' || c = '+' || c = '.'

def mark (c : Char) : Option Token :=
  if c = '{' then some .openObject
  else if c = '}' then some .closeObject
  else if c = '[' then some .openArray
  else if c = ']' then some .closeArray
  else if c = ',' then some .comma
  else if c = ':' then some .colon
  else none

def unescape (c : Char) : Option ℕ :=
  if c = '"' ∨ c = '\\' ∨ c = '/' then some c.toNat
  else if c = 'b' then some 8
  else if c = 't' then some 9
  else if c = 'n' then some 10
  else if c = 'f' then some 12
  else if c = 'r' then some 13
  else none

def hexValue (c : Char) : Option ℕ :=
  if c.isDigit then some (c.toNat - 48)
  else if 'a' ≤ c ∧ c ≤ 'f' then some (c.toNat - 87)
  else if 'A' ≤ c ∧ c ≤ 'F' then some (c.toNat - 55)
  else none

/-- What follows the digits before the exponent. -/
def isExponent : List Char → Bool
  | [] => true
  | e :: rest =>
    let digits := match rest with
      | '+' :: digits | '-' :: digits => digits
      | digits => digits
    (e = 'e' || e = 'E') && !digits.isEmpty && digits.all Char.isDigit

def isFraction : List Char → Bool
  | '.' :: rest =>
    !(rest.takeWhile Char.isDigit).isEmpty && isExponent (rest.dropWhile Char.isDigit)
  | rest => isExponent rest

/-- A number without a sign: its whole part, and whether there is more. No zero stands in front. -/
def magnitude (cs : List Char) : Option (ℕ × Bool) :=
  let whole := cs.takeWhile Char.isDigit
  let rest := cs.dropWhile Char.isDigit
  let n := Nat.ofDigitChars 10 whole 0
  if whole = Nat.toDigits 10 n ∧ isFraction rest = true then some (n, !rest.isEmpty) else none

/-- How a runtime keeps integers, and which names it knows besides those of JSON. -/
structure Runtime where
  integer : ℤ → Value
  name : List Char → Option Value
  name_letters : ∀ cs, (∃ c ∈ cs, c.isDigit = true) → name cs = none

variable (rt : Runtime)

def number (cs : List Char) : Option Value :=
  let signed (sign : ℤ) (m : ℕ × Bool) : Value := if m.2 then .float else rt.integer (sign * m.1)
  match cs with
  | '-' :: cs => (magnitude cs).map (signed (-1))
  | cs => (magnitude cs).map (signed 1)

def wordValue (cs : List Char) : Option Value :=
  if cs = "null".toList then some .null
  else if cs = "true".toList then some (.bool true)
  else if cs = "false".toList then some (.bool false)
  else (rt.name cs).orElse fun _ => number rt cs

def idleStep (c : Char) : Option (List Token × Mode) :=
  if isBlank c then some ([], .idle)
  else if c = '"' then some ([], .text [])
  else if isWordChar c then some ([], .word [c])
  else (mark c).map fun t => ([t], .idle)

def step : Mode → Char → Option (List Token × Mode)
  | .idle, c => idleStep c
  | .word letters, c =>
    if isWordChar c then some ([], .word (letters ++ [c]))
    else do
      let v ← wordValue rt letters
      let (ts, m) ← idleStep c
      pure (.scalar v :: ts, m)
  | .text us, c =>
    if c = '"' then some ([.str (String.ofList (ofUnits us))], .idle)
    else if c = '\\' then some ([], .escape us)
    else if c.toNat < 0x20 then none
    else some ([], .text (us ++ units c))
  | .escape us, c =>
    if c = 'u' then some ([], .hex us 3 0)
    else (unescape c).map fun u => ([], .text (us ++ [u]))
  | .hex us more u, c => (hexValue c).map fun d =>
    match more with
    | 0 => ([], .text (us ++ [16 * u + d]))
    | more + 1 => ([], .hex us more (16 * u + d))

def lex : Mode → List Char → Option (List Token)
  | .idle, [] => some []
  | .word letters, [] => (wordValue rt letters).map fun v => [.scalar v]
  | _, [] => none
  | m, c :: cs => do
    let (ts, m) ← step rt m c
    let rest ← lex m cs
    pure (ts ++ rest)

/-- A whole text. -/
inductive Doc where
  | scalar (v : Value)
  | object (d : Dict)
  | array
deriving DecidableEq, Repr

def Doc.inner : Doc → Value
  | .scalar v => v
  | .object _ => .compound
  | .array => .compound

/-- What is open around a place; of an object its entries, and the key of the value to come. -/
inductive Frame where
  | object (d : Dict) (key : String)
  | array
deriving DecidableEq, Repr

/-- What may come next. -/
inductive Spot where
  | value
  | element
  | member
  | key
  | colon
  | next
deriving DecidableEq, Repr

inductive Reading where
  | done (doc : Doc)
  | inside (stack : List Frame) (spot : Spot)
deriving DecidableEq, Repr

def put (d : Dict) (key : String) (v : Value) : Dict := d.filter (fun e => e.1 ≠ key) ++ [(key, v)]

def complete (doc : Doc) : List Frame → Reading
  | [] => .done doc
  | .object d key :: stack => .inside (.object (put d key doc.inner) key :: stack) .next
  | .array :: stack => .inside (.array :: stack) .next

def begin (stack : List Frame) : Token → Option Reading
  | .str s => some (complete (.scalar (.str s)) stack)
  | .scalar v => some (complete (.scalar v) stack)
  | .openObject => some (.inside (.object [] "" :: stack) .member)
  | .openArray => some (.inside (.array :: stack) .element)
  | _ => none

def feed : Reading → Token → Option Reading
  | .inside stack .value, t => begin stack t
  | .inside (.array :: stack) .element, t =>
    if t = .closeArray then some (complete .array stack) else begin (.array :: stack) t
  | .inside (.object d _ :: stack) .member, .closeObject => some (complete (.object d) stack)
  | .inside (.object d _ :: stack) .member, .str key =>
    some (.inside (.object d key :: stack) .colon)
  | .inside (.object d _ :: stack) .key, .str key => some (.inside (.object d key :: stack) .colon)
  | .inside stack .colon, .colon => some (.inside stack .value)
  | .inside (.object d key :: stack) .next, .comma => some (.inside (.object d key :: stack) .key)
  | .inside (.object d _ :: stack) .next, .closeObject => some (complete (.object d) stack)
  | .inside (.array :: stack) .next, .comma => some (.inside (.array :: stack) .value)
  | .inside (.array :: stack) .next, .closeArray => some (complete .array stack)
  | _, _ => none

def read (cs : List Char) : Option Doc := do
  let ts ← lex rt .idle cs
  match ← ts.foldlM feed (.inside [] .value) with
  | .done doc => some doc
  | .inside _ _ => none

end Reader

section Writer

/-- How a runtime writes: the blanks after commas and colons, and the characters that stand for
themselves. -/
structure Style where
  gap : List Char
  raw : Char → Bool
  gap_blank : ∀ c ∈ gap, isBlank c = true
  raw_printable : ∀ c, raw c = true → 0x20 ≤ c.toNat

def shortEscape (c : Char) : Option Char :=
  if c = '"' ∨ c = '\\' then some c
  else if c.toNat = 8 then some 'b'
  else if c.toNat = 9 then some 't'
  else if c.toNat = 10 then some 'n'
  else if c.toNat = 12 then some 'f'
  else if c.toNat = 13 then some 'r'
  else none

def escapeUnit (u : ℕ) : List Char :=
  ['\\', 'u', Nat.digitChar (u / 0x1000), Nat.digitChar (u / 0x100 % 16),
    Nat.digitChar (u / 0x10 % 16), Nat.digitChar (u % 16)]

variable (st : Style)

def escapeChar (c : Char) : List Char :=
  match shortEscape c with
  | some e => ['\\', e]
  | none => if st.raw c then [c] else (units c).flatMap escapeUnit

def quote (s : String) : List Char := '"' :: (s.toList.flatMap (escapeChar st) ++ ['"'])

def intText : ℤ → List Char
  | .ofNat n => Nat.toDigits 10 n
  | .negSucc n => '-' :: Nat.toDigits 10 (n + 1)

def valueText : Value → Option (List Char)
  | .null => some "null".toList
  | .bool true => some "true".toList
  | .bool false => some "false".toList
  | .int n => some (intText n)
  | .str s => some (quote st s)
  | .float | .compound => none

def entryText (e : String × Value) : Option (List Char) :=
  (valueText st e.2).map fun text => quote st e.1 ++ ':' :: (st.gap ++ text)

def entriesText : Dict → Option (List Char)
  | [] => some []
  | [e] => entryText st e
  | e :: d => do
    let first ← entryText st e
    let rest ← entriesText d
    pure (first ++ ',' :: (st.gap ++ rest))

def write (d : Dict) : Option (List Char) :=
  (entriesText st d).map fun text => '{' :: (text ++ ['}'])

end Writer

section Lexing

variable (rt : Runtime) {m m' m'' : Mode} {a b : List Char} {ts us : List Token} {c : Char}

/-- The piece is read to the tokens, and what follows it is read from the second mode. -/
def Lexes (m : Mode) (piece : List Char) (ts : List Token) (m' : Mode) : Prop :=
  ∀ rest, lex rt m (piece ++ rest) = (lex rt m' rest).map fun us => ts ++ us

theorem lex_cons (m : Mode) (c : Char) (cs : List Char) :
    lex rt m (c :: cs) = (step rt m c).bind fun p => (lex rt p.2 cs).map fun us => p.1 ++ us := by
  rw [lex]
  cases step rt m c with
  | none => rfl
  | some p =>
    obtain ⟨ts, m'⟩ := p
    cases hrest : lex rt m' cs <;> simp [hrest]

variable {rt}

theorem Lexes.nil : Lexes rt m [] [] m := by
  intro rest
  simp

theorem Lexes.trans (h : Lexes rt m a ts m') (h' : Lexes rt m' b us m'') :
    Lexes rt m (a ++ b) (ts ++ us) m'' := by
  intro rest
  rw [List.append_assoc, h, h', Option.map_map]
  congr 1
  funext vs
  simp

theorem Lexes.char (h : step rt m c = some (ts, m')) : Lexes rt m [c] ts m' := by
  intro rest
  rw [List.singleton_append, lex_cons, h]
  rfl

theorem Lexes.cons (h : step rt m c = some (ts, m')) (h' : Lexes rt m' b us m'') :
    Lexes rt m (c :: b) (ts ++ us) m'' := (Lexes.char h).trans h'

theorem Lexes.blanks {cs : List Char} (h : ∀ c ∈ cs, isBlank c = true) :
    Lexes rt .idle cs [] .idle := by
  induction cs with
  | nil => exact .nil
  | cons c cs ih =>
    have hblank : step rt .idle c = some ([], .idle) := by
      simp [step, idleStep, h c List.mem_cons_self]
    exact .cons hblank (ih fun d hd => h d (List.mem_cons_of_mem _ hd))

end Lexing

section Texts

variable {rt : Runtime} {st : Style}

theorem hexValue_digitChar : ∀ d < 16, hexValue (Nat.digitChar d) = some d := by decide

theorem lexes_hex {us : List ℕ} {d more u : ℕ} (hd : d < 16) :
    step rt (.hex us (more + 1) u) (Nat.digitChar d) = some ([], .hex us more (16 * u + d)) := by
  simp [step, hexValue_digitChar d hd]

theorem lexes_escapeUnit {us : List ℕ} {u : ℕ} (hu : u < 0x10000) :
    Lexes rt (.text us) (escapeUnit u) [] (.text (us ++ [u])) := by
  have hbackslash : step rt (.text us) '\\' = some ([], .escape us) := rfl
  have hopen : step rt (.escape us) 'u' = some ([], .hex us 3 0) := rfl
  have hlast : step rt
      (.hex us 0 (16 * (16 * (16 * 0 + u / 0x1000) + u / 0x100 % 16) + u / 0x10 % 16))
      (Nat.digitChar (u % 16)) = some ([], .text (us ++ [u])) := by
    have hvalue : 16 * (16 * (16 * (16 * 0 + u / 0x1000) + u / 0x100 % 16) + u / 0x10 % 16) +
        u % 16 = u := by omega
    simp only [step, hexValue_digitChar _ (Nat.mod_lt u (by decide)), Option.map_some, hvalue]
  apply Lexes.cons hbackslash
  apply Lexes.cons hopen
  apply Lexes.cons (lexes_hex (by omega))
  apply Lexes.cons (lexes_hex (Nat.mod_lt _ (by decide)))
  apply Lexes.cons (lexes_hex (Nat.mod_lt _ (by decide)))
  exact Lexes.char hlast

theorem lexes_units {us vs : List ℕ} (h : ∀ u ∈ vs, u < 0x10000) :
    Lexes rt (.text us) (vs.flatMap escapeUnit) [] (.text (us ++ vs)) := by
  induction vs generalizing us with
  | nil => simpa using Lexes.nil
  | cons u vs ih =>
    have hrest : Lexes rt (.text (us ++ [u])) (vs.flatMap escapeUnit) []
        (.text (us ++ [u] ++ vs)) := ih fun v hv => h v (List.mem_cons_of_mem _ hv)
    rw [List.append_assoc] at hrest
    exact (lexes_escapeUnit (h u List.mem_cons_self)).trans hrest

theorem shortEscape_unescape {c e : Char} (h : shortEscape c = some e) :
    e ≠ 'u' ∧ unescape e = some c.toNat ∧ c.toNat < 0x10000 := by
  rw [shortEscape] at h
  split_ifs at h with h₁ h₂ h₃ h₄ h₅ h₆
  · cases h
    rcases h₁ with rfl | rfl
    · decide
    · decide
  all_goals
    cases h
    simp_all [unescape]

theorem lexes_escapeChar (c : Char) (us : List ℕ) :
    Lexes rt (.text us) (escapeChar st c) [] (.text (us ++ units c)) := by
  rw [escapeChar]
  cases hshort : shortEscape c with
  | some e =>
    obtain ⟨hu, hback, hsmall⟩ := shortEscape_unescape hshort
    have hunits : units c = [c.toNat] := if_pos hsmall
    have hbackslash : step rt (.text us) '\\' = some ([], .escape us) := rfl
    have hend : step rt (.escape us) e = some ([], .text (us ++ units c)) := by
      simp [step, hu, hback, hunits]
    exact Lexes.cons hbackslash (.char hend)
  | none =>
    simp only
    split
    · rename_i hraw
      have hprintable := st.raw_printable c hraw
      have hplain : ¬ (c = '"' ∨ c = '\\') := by
        intro hc
        simp [shortEscape, hc] at hshort
      rw [not_or] at hplain
      apply Lexes.char
      simp only [step, hplain.1, hplain.2, if_false]
      rw [if_neg (by omega)]
    · exact lexes_units fun u hu => units_lt hu

theorem lexes_chars (cs : List Char) (us : List ℕ) :
    Lexes rt (.text us) (cs.flatMap (escapeChar st)) [] (.text (us ++ cs.flatMap units)) := by
  induction cs generalizing us with
  | nil => simpa using Lexes.nil
  | cons c cs ih =>
    have hrest := ih (us ++ units c)
    rw [List.append_assoc] at hrest
    exact (lexes_escapeChar c us).trans hrest

theorem lexes_quote (s : String) : Lexes rt .idle (quote st s) [.str s] .idle := by
  have hopen : step rt .idle '"' = some ([], .text []) := rfl
  have hclose : step rt (.text ([] ++ s.toList.flatMap units)) '"' = some ([.str s], .idle) := by
    simp [step, ofUnits_text]
  exact Lexes.cons hopen ((lexes_chars s.toList []).trans (.char hclose))

end Texts

section Words

variable {rt : Runtime} {c : Char}

theorem wordChar_idle (h : isWordChar c = true) : step rt .idle c = some ([], .word [c]) := by
  have hblank : isBlank c = false := by
    rw [← Bool.not_eq_true]
    intro hb
    simp only [isBlank, Bool.or_eq_true, decide_eq_true_eq] at hb
    rcases hb with ((rfl | rfl) | rfl) | rfl <;> exact absurd h (by decide)
  have hquote : c ≠ '"' := by
    rintro rfl
    exact absurd h (by decide)
  simp [step, idleStep, hblank, hquote, h]

theorem lexes_letters {letters cs : List Char} (h : ∀ c ∈ cs, isWordChar c = true) :
    Lexes rt (.word letters) cs [] (.word (letters ++ cs)) := by
  induction cs generalizing letters with
  | nil => simpa using Lexes.nil
  | cons c cs ih =>
    have hc : step rt (.word letters) c = some ([], .word (letters ++ [c])) := by
      simp [step, h c List.mem_cons_self]
    have hrest : Lexes rt (.word (letters ++ [c])) cs [] (.word (letters ++ [c] ++ cs)) :=
      ih fun d hd => h d (List.mem_cons_of_mem _ hd)
    rw [List.append_assoc] at hrest
    exact .cons hc hrest

theorem lexes_word {cs : List Char} (hne : cs ≠ []) (h : ∀ c ∈ cs, isWordChar c = true) :
    Lexes rt .idle cs [] (.word cs) := by
  cases cs with
  | nil => exact absurd rfl hne
  | cons c cs =>
    exact .cons (wordChar_idle (h c List.mem_cons_self))
      (lexes_letters fun d hd => h d (List.mem_cons_of_mem _ hd))

theorem mark_idle {t : Token} (h : mark c = some t) :
    isWordChar c = false ∧ idleStep c = some ([t], .idle) := by
  have hmarks : c = '{' ∨ c = '}' ∨ c = '[' ∨ c = ']' ∨ c = ',' ∨ c = ':' := by
    by_contra hno
    simp only [not_or] at hno
    obtain ⟨h₁, h₂, h₃, h₄, h₅, h₆⟩ := hno
    simp [mark, h₁, h₂, h₃, h₄, h₅, h₆] at h
  rcases hmarks with rfl | rfl | rfl | rfl | rfl | rfl
  all_goals
    obtain rfl := Option.some.inj h
    exact ⟨by decide, rfl⟩

theorem lexes_wordMark {cs : List Char} {v : Value} {t : Token} (hv : wordValue rt cs = some v)
    (hne : cs ≠ []) (h : ∀ c ∈ cs, isWordChar c = true) (hc : mark c = some t) :
    Lexes rt .idle (cs ++ [c]) [.scalar v, t] .idle := by
  obtain ⟨hword, hidle⟩ := mark_idle hc
  have hend : step rt (.word cs) c = some ([.scalar v, t], .idle) := by
    simp [step, hword, hv, hidle]
  exact (lexes_word hne h).trans (.char hend)

end Words

section Numbers

variable (rt : Runtime)

theorem magnitude_toDigits (n : ℕ) : magnitude (Nat.toDigits 10 n) = some (n, false) := by
  have hdigit : ∀ c ∈ Nat.toDigits 10 n, c.isDigit = true :=
    fun c hc => Nat.isDigit_of_mem_toDigits (by decide) (by decide) hc
  have hwhole : (Nat.toDigits 10 n).takeWhile Char.isDigit = Nat.toDigits 10 n :=
    List.takeWhile_eq_self_iff.mpr hdigit
  have hrest : (Nat.toDigits 10 n).dropWhile Char.isDigit = [] :=
    List.dropWhile_eq_nil_iff.mpr hdigit
  simp [magnitude, hwhole, hrest, Nat.ofDigitChars_ten_toDigits, isFraction, isExponent]

theorem toDigits_head (n : ℕ) : ∃ c cs, Nat.toDigits 10 n = c :: cs ∧ c.isDigit = true := by
  cases h : Nat.toDigits 10 n with
  | nil => exact absurd h Nat.toDigits_ne_nil
  | cons c cs =>
    refine ⟨c, cs, rfl, Nat.isDigit_of_mem_toDigits (b := 10) (n := n) (by decide) (by decide) ?_⟩
    rw [h]
    exact List.mem_cons_self

theorem number_intText (n : ℤ) : number rt (intText n) = some (rt.integer n) := by
  cases n with
  | ofNat n =>
    obtain ⟨c, cs, hc, hdigit⟩ := toDigits_head n
    have hminus : c ≠ '-' := by
      rintro rfl
      exact absurd hdigit (by decide)
    have hmag := magnitude_toDigits n
    rw [hc] at hmag
    rw [intText, hc, number]
    · simp [hmag]
    · rintro ds ⟨⟩
      exact hminus rfl
  | negSucc n =>
    have hneg : (-1 : ℤ) * ((n + 1 : ℕ) : ℤ) = Int.negSucc n := by omega
    simp [intText, number, magnitude_toDigits, Int.negSucc_eq]

theorem wordValue_intText (n : ℤ) : wordValue rt (intText n) = some (rt.integer n) := by
  have hdigit : ∃ c ∈ intText n, c.isDigit = true := by
    cases n with
    | ofNat n =>
      obtain ⟨c, cs, hc, hd⟩ := toDigits_head n
      exact ⟨c, by simp [intText, hc], hd⟩
    | negSucc n =>
      obtain ⟨c, cs, hc, hd⟩ := toDigits_head (n + 1)
      exact ⟨c, by simp [intText, hc], hd⟩
  have hno : ∀ name : List Char, (name.all fun c => !c.isDigit) = true → intText n ≠ name := by
    intro name hname heq
    obtain ⟨c, hc, hd⟩ := hdigit
    have hletter := List.all_eq_true.mp hname c (heq ▸ hc)
    simp [hd] at hletter
  rw [wordValue, if_neg (hno _ (by decide)), if_neg (hno _ (by decide)), if_neg (hno _ (by decide)),
    rt.name_letters _ hdigit, number_intText]
  rfl

theorem intText_word (n : ℤ) : intText n ≠ [] ∧ ∀ c ∈ intText n, isWordChar c = true := by
  have hdigits : ∀ (m : ℕ), ∀ c ∈ Nat.toDigits 10 m, isWordChar c = true := by
    intro m c hc
    have hd : c.isDigit = true := Nat.isDigit_of_mem_toDigits (by decide) (by decide) hc
    simp [isWordChar, Char.isAlphanum, hd]
  cases n with
  | ofNat n => exact ⟨Nat.toDigits_ne_nil, hdigits n⟩
  | negSucc n =>
    refine ⟨by simp [intText], ?_⟩
    intro c hc
    rcases List.mem_cons.mp hc with rfl | hc
    · rfl
    · exact hdigits _ c hc

end Numbers

section RoundTrip

variable (rt : Runtime) {st : Style} {c : Char}

/-- What a runtime keeps of a value. -/
def kept : Value → Value
  | .int n => rt.integer n
  | v => v

def valueToken : Value → Token
  | .str s => .str s
  | v => .scalar (kept rt v)

def entryTokens (e : String × Value) : List Token := [.str e.1, .colon, valueToken rt e.2]

def entriesTokens : Dict → List Token
  | [] => []
  | [e] => entryTokens rt e
  | e :: d => entryTokens rt e ++ .comma :: entriesTokens d

variable {rt}

theorem lexes_value {v : Value} {text : List Char} {t : Token} (h : valueText st v = some text)
    (hc : mark c = some t) : Lexes rt .idle (text ++ [c]) [valueToken rt v, t] .idle := by
  have hname : ∀ (name : List Char) (v : Value), wordValue rt name = some v → name ≠ [] →
      name.all isWordChar = true → Lexes rt .idle (name ++ [c]) [.scalar v, t] .idle :=
    fun name v hv hne hall => lexes_wordMark hv hne (List.all_eq_true.mp hall) hc
  cases v with
  | null =>
    obtain rfl := Option.some.inj h
    exact hname _ _ rfl (by decide) (by decide)
  | bool b =>
    cases b with
    | true =>
      obtain rfl := Option.some.inj h
      exact hname _ _ rfl (by decide) (by decide)
    | false =>
      obtain rfl := Option.some.inj h
      exact hname _ _ rfl (by decide) (by decide)
  | int n =>
    obtain rfl := Option.some.inj h
    obtain ⟨hne, hword⟩ := intText_word n
    exact lexes_wordMark (wordValue_intText rt n) hne hword hc
  | str s =>
    obtain rfl := Option.some.inj h
    exact (lexes_quote s).trans (.char (mark_idle hc).2)
  | float | compound => cases h

theorem lexes_entry {e : String × Value} {text : List Char} {t : Token}
    (h : entryText st e = some text) (hc : mark c = some t) :
    Lexes rt .idle (text ++ [c]) (entryTokens rt e ++ [t]) .idle := by
  obtain ⟨value, hvalue, rfl⟩ := Option.map_eq_some_iff.mp h
  have hcolon : Lexes rt .idle (':' :: st.gap) [.colon] .idle :=
    .cons (show step rt .idle ':' = some ([.colon], .idle) from rfl) (.blanks st.gap_blank)
  have hkey : Lexes rt .idle (quote st e.1) [.str e.1] .idle := lexes_quote e.1
  have hall := (hkey.trans hcolon).trans (lexes_value hvalue hc)
  simpa [entryTokens] using hall

theorem entriesText_cons (e : String × Value) {d : Dict} (hd : d ≠ []) :
    entriesText st (e :: d) = (entryText st e).bind fun first =>
      (entriesText st d).map fun rest => first ++ ',' :: (st.gap ++ rest) := by
  cases d with
  | nil => exact absurd rfl hd
  | cons e' d =>
    rw [entriesText]
    · cases entryText st e with
      | none => rfl
      | some first => cases entriesText st (e' :: d) <;> rfl
    · simp

theorem entriesTokens_cons (e : String × Value) {d : Dict} (hd : d ≠ []) :
    entriesTokens rt (e :: d) = entryTokens rt e ++ .comma :: entriesTokens rt d := by
  cases d with
  | nil => exact absurd rfl hd
  | cons e' d => rfl

theorem lexes_entries {d : Dict} (hd : d ≠ []) {text : List Char}
    (h : entriesText st d = some text) :
    Lexes rt .idle (text ++ ['}']) (entriesTokens rt d ++ [.closeObject]) .idle := by
  induction d using entriesText.induct generalizing text with
  | case1 => exact absurd rfl hd
  | case2 e => exact lexes_entry h rfl
  | case3 e d hne ih =>
    have hd : d ≠ [] := fun hnil => hne hnil
    rw [entriesText_cons e hd] at h
    obtain ⟨first, hfirst, hmap⟩ := Option.bind_eq_some_iff.mp h
    obtain ⟨rest, hrest, rfl⟩ := Option.map_eq_some_iff.mp hmap
    have hentry : Lexes rt .idle (first ++ [',']) (entryTokens rt e ++ [.comma]) .idle :=
      lexes_entry hfirst rfl
    have hgap : Lexes rt .idle st.gap [] .idle := .blanks st.gap_blank
    have hall := (hentry.trans hgap).trans (ih hd hrest)
    rw [entriesTokens_cons e hd]
    simpa using hall

theorem lexes_write {d : Dict} {text : List Char} (h : write st d = some text) :
    Lexes rt .idle text (.openObject :: (entriesTokens rt d ++ [.closeObject])) .idle := by
  obtain ⟨inner, hinner, rfl⟩ := Option.map_eq_some_iff.mp h
  have hopen : step rt .idle '{' = some ([.openObject], .idle) := rfl
  apply Lexes.cons hopen
  cases d with
  | nil =>
    obtain rfl := Option.some.inj hinner
    exact Lexes.char rfl
  | cons e d => exact lexes_entries (by simp) hinner

theorem put_new {d : Dict} {key : String} (v : Value) (h : key ∉ d.map Prod.fst) :
    put d key v = d ++ [(key, v)] := by
  have hkeep : d.filter (fun e => e.1 ≠ key) = d := by
    apply List.filter_eq_self.mpr
    intro e he
    have hne : e.1 ≠ key := fun heq => h (heq ▸ List.mem_map_of_mem he)
    simpa using hne
  rw [put, hkeep]

theorem begin_value (v : Value) (stack : List Frame) :
    begin stack (valueToken rt v) = some (complete (.scalar (kept rt v)) stack) := by
  cases v <;> rfl

/-- An entry with a new key is added to the object that is being read. -/
theorem feed_entry {d : Dict} {k : String} {spot : Spot} (hspot : spot = .member ∨ spot = .key)
    {e : String × Value} (he : e.1 ∉ d.map Prod.fst) (ts : List Token) :
    (entryTokens rt e ++ ts).foldlM feed (.inside [.object d k] spot) =
      ts.foldlM feed (.inside [.object (d ++ [(e.1, kept rt e.2)]) e.1] .next) := by
  have hkey : feed (.inside [.object d k] spot) (.str e.1) =
      some (.inside [.object d e.1] .colon) := by
    rcases hspot with rfl | rfl <;> rfl
  have hvalue : feed (.inside [.object d e.1] .value) (valueToken rt e.2) =
      some (.inside [.object (d ++ [(e.1, kept rt e.2)]) e.1] .next) := by
    have hbegin : begin [.object d e.1] (valueToken rt e.2) = _ := begin_value e.2 _
    rw [complete, put_new _ he] at hbegin
    exact hbegin
  have hcolon : feed (.inside [.object d e.1] .colon) .colon =
      some (.inside [.object d e.1] .value) := rfl
  simp only [entryTokens, List.cons_append, List.nil_append, List.foldlM_cons, hkey, hcolon, hvalue,
    Option.bind_eq_bind, Option.bind_some]

theorem key_new {seen d : Dict} {e : String × Value}
    (hkeys : ((seen ++ e :: d).map Prod.fst).Nodup) : e.1 ∉ seen.map Prod.fst := by
  rw [List.map_append, List.nodup_append] at hkeys
  intro hmem
  exact hkeys.2.2 e.1 hmem e.1 (by simp) rfl

def keptEntries (rt : Runtime) (d : Dict) : Dict := d.map fun e => (e.1, kept rt e.2)

theorem feed_entries {d : Dict} (hd : d ≠ []) {seen : Dict} {k : String} {spot : Spot}
    (hspot : spot = .member ∨ spot = .key) (hkeys : ((seen ++ d).map Prod.fst).Nodup) :
    (entriesTokens rt d ++ [Token.closeObject]).foldlM feed (.inside [.object seen k] spot) =
      some (.done (.object (seen ++ keptEntries rt d))) := by
  induction d using entriesTokens.induct generalizing seen k spot with
  | case1 => exact absurd rfl hd
  | case2 e =>
    rw [entriesTokens, feed_entry hspot (key_new hkeys)]
    rfl
  | case3 e d hne ih =>
    have hcomma : feed (.inside [.object (seen ++ [(e.1, kept rt e.2)]) e.1] .next) .comma =
        some (.inside [.object (seen ++ [(e.1, kept rt e.2)]) e.1] .key) := rfl
    have hnext : (((seen ++ [(e.1, kept rt e.2)]) ++ d).map Prod.fst).Nodup := by
      simpa using hkeys
    rw [entriesTokens_cons e fun hnil => hne hnil, List.append_assoc,
      feed_entry hspot (key_new hkeys), List.cons_append, List.foldlM_cons, hcomma]
    have hrest := ih (fun hnil => hne hnil) (k := e.1) (.inr rfl) hnext
    simpa [keptEntries] using hrest

/-- What one runtime writes of an object is what another one keeps of it. -/
theorem read_write (rt : Runtime) {d : Dict} {text : List Char} (h : write st d = some text)
    (hkeys : (d.map Prod.fst).Nodup) : read rt text = some (.object (keptEntries rt d)) := by
  have hlexes : Lexes rt .idle text _ .idle := lexes_write h
  have hlex := hlexes []
  have htokens : lex rt .idle text =
      some (.openObject :: (entriesTokens rt d ++ [.closeObject])) := by
    simpa [lex] using hlex
  have hfeed : (entriesTokens rt d ++ [Token.closeObject]).foldlM feed
      (.inside [.object [] ""] .member) = some (.done (.object (keptEntries rt d))) := by
    cases d with
    | nil => rfl
    | cons e d => exact feed_entries (by simp) (.inl rfl) hkeys
  have hall : (Token.openObject :: (entriesTokens rt d ++ [Token.closeObject])).foldlM feed
      (.inside [] .value) = some (.done (.object (keptEntries rt d))) := hfeed
  simp [read, htokens, hall]

theorem write_isSome (st : Style) {d : Dict} (h : ∀ e ∈ d, e.2 ≠ .float ∧ e.2 ≠ .compound) :
    ∃ text, write st d = some text := by
  have hentry : ∀ e : String × Value, e.2 ≠ .float ∧ e.2 ≠ .compound →
      ∃ text, entryText st e = some text := by
    rintro ⟨key, v⟩ ⟨hfloat, hcompound⟩
    cases v with
    | bool b => cases b <;> exact ⟨_, rfl⟩
    | float => exact absurd rfl hfloat
    | compound => exact absurd rfl hcompound
    | null | int | str => exact ⟨_, rfl⟩
  have hentries : ∃ text, entriesText st d = some text := by
    induction d using entriesText.induct with
    | case1 => exact ⟨_, rfl⟩
    | case2 e => exact hentry e (h e (by simp))
    | case3 e d hne ih =>
      obtain ⟨first, hfirst⟩ := hentry e (h e (by simp))
      obtain ⟨rest, hrest⟩ := ih fun e' he' => h e' (List.mem_cons_of_mem _ he')
      refine ⟨first ++ ',' :: (st.gap ++ rest), ?_⟩
      rw [entriesText_cons e fun hnil => hne hnil, hfirst, hrest]
      rfl
  obtain ⟨inner, hinner⟩ := hentries
  exact ⟨_, by rw [write, hinner]; rfl⟩

end RoundTrip

end CloudVM.JsonText
