import CloudVM.Framework.Escapes
import CloudVM.Framework.Lines
import CloudVM.Framework.Utf8
import CloudVM.Worker.Template
import Mathlib.Algebra.Order.BigOperators.Group.List
import Mathlib.Algebra.Order.Ring.Nat
import Mathlib.Data.List.DropRight

/-!
# Keys on their way into a machine

The worker puts the keys into one line between quotes, OpenNebula takes the quoting away, and
`vm-init.sh` expands the line and appends what it takes for keys. `printf '%b'` expands every
escape, not only the ends of lines.
-/

namespace CloudVM.Guest

open Worker Text Shell

section Context

/-- The value between quotes: a backslash before a backslash or a quote is taken away. -/
def readQuoted : List Char → Option (List Char)
  | [] => none
  | '"' :: _ => some []
  | '\\' :: '\\' :: rest => (readQuoted rest).map ('\\' :: ·)
  | '\\' :: '"' :: rest => (readQuoted rest).map ('"' :: ·)
  | c :: rest => (readQuoted rest).map (c :: ·)

/-- What follows the first place where the marker stands. -/
def after (marker : List Char) : List Char → Option (List Char)
  | [] => if marker = [] then some [] else none
  | c :: text =>
    if marker.isPrefixOf (c :: text) then some ((c :: text).drop marker.length)
    else after marker text

/-- The attribute of a template that becomes the context variable. -/
def sshPublicKey (template : String) : Option String :=
  ((after "SSH_PUBLIC_KEY=\"".toList template.toList).bind readQuoted).map String.ofList

theorem readQuoted_escaped (value rest : List Char) :
    readQuoted (value.flatMap escapeChar ++ '"' :: rest) = some value := by
  induction value with
  | nil => rfl
  | cons c value ih =>
    rw [List.flatMap_cons, List.append_assoc]
    by_cases hslash : c = '\\'
    · subst hslash
      simp [escapeChar, readQuoted, ih]
    · by_cases hquote : c = '"'
      · subst hquote
        simp [escapeChar, readQuoted, ih]
      · simp [escapeChar, readQuoted, hslash, hquote, ih]

/-- A marker is found behind a text without its first character. -/
private theorem after_append {m : Char} {ms : List Char} {base rest : List Char} (h : m ∉ base) :
    after (m :: ms) (base ++ (m :: ms) ++ rest) = some rest := by
  induction base with
  | nil => simp [after]
  | cons c base ih =>
    rw [List.mem_cons, not_or] at h
    have hne : (m == c) = false := by simp [h.1]
    simp only [List.cons_append, after, List.isPrefixOf, hne, Bool.false_and]
    exact ih h.2

private theorem after_none {m : Char} {ms : List Char} {base : List Char} (h : m ∉ base) :
    after (m :: ms) base = none := by
  induction base with
  | nil => simp [after]
  | cons c base ih =>
    rw [List.mem_cons, not_or] at h
    simp [after, h.1, ih h.2]

theorem not_mem_repr {c : Char} (hdigit : c.isDigit = false) (hsign : c ≠ '-') (n : Int) :
    c ∉ n.repr.toList := by
  have hnat : ∀ m : ℕ, c ∉ (Nat.repr m).toList := by
    intro m hm
    rw [Nat.toList_repr] at hm
    have hd := Nat.isDigit_of_mem_toDigits (by omega) (by omega) hm
    rw [hdigit] at hd
    cases hd
  cases n with
  | ofNat m => exact hnat m
  | negSucc m =>
    change c ∉ ("-" ++ Nat.repr (m + 1)).toList
    rw [String.toList_append, List.mem_append, not_or]
    exact ⟨by simpa using hsign, hnat (m + 1)⟩

/-- The context variable holds the keys as the worker put them into one line. -/
theorem sshPublicKey_extraTemplateBase (cpu ramMb : Int) (keys : List String) :
    sshPublicKey (extraTemplateBase cpu ramMb keys) =
      if String.intercalate "\n" keys = "" then none else some (keysForTemplate keys) := by
  have hbase : 'S' ∉ (s!"CPU={cpu}\nVCPU={cpu}\nMEMORY={ramMb}\n").toList := by
    have hcpu : 'S' ∉ cpu.repr.toList := not_mem_repr rfl (by decide) cpu
    have hram : 'S' ∉ ramMb.repr.toList := not_mem_repr rfl (by decide) ramMb
    simp [hcpu, hram]
    decide
  rw [extraTemplateBase_eq, sshPublicKey]
  have hmarker : "SSH_PUBLIC_KEY=\"".toList = 'S' :: "SH_PUBLIC_KEY=\"".toList := rfl
  split
  · rw [String.append_empty, hmarker, after_none hbase]
    rfl
  · have hclose : "\"\n".toList = ['"', '\n'] := rfl
    have hquoted : ("SSH_PUBLIC_KEY=\"" ++ escapeOneTemplateValue (keysForTemplate keys) ++
        "\"\n").toList = "SSH_PUBLIC_KEY=\"".toList ++
          ((keysForTemplate keys).toList.flatMap escapeChar ++ ['"', '\n']) := by
      simp only [String.toList_append, escapeOneTemplateValue_eq, String.toList_ofList, hclose,
        List.append_assoc]
    rw [String.toList_append, hquoted, hmarker, ← List.append_assoc, after_append hbase,
      Option.bind_some, readQuoted_escaped, Option.map_some, String.ofList_toList]

end Context

section Script

/-- The `[:space:]` of the machine's locale, each as the bytes of a character. Python is taken to
count all of these characters as white space, too. -/
structure Locale where
  spaces : List (List UInt8)
  white : ∀ w ∈ spaces, ∃ c, pySpace c = true ∧ w = String.utf8EncodeChar c

/-- Take white space away at the front, in the middle of a character of `skip` more bytes. -/
def trimStart (spaces : List (List UInt8)) : ℕ → List UInt8 → List UInt8
  | _, [] => []
  | skip + 1, _ :: rest => trimStart spaces skip rest
  | 0, c :: rest =>
    match spaces.find? fun w => w.isPrefixOf (c :: rest) with
    | some w => trimStart spaces (w.length - 1) rest
    | none => c :: rest

/-- The two expansions that cut white space off a line. -/
def Locale.trim (l : Locale) (line : List UInt8) : List UInt8 :=
  (trimStart (l.spaces.map List.reverse) 0 (trimStart l.spaces 0 line).reverse).reverse

/-- What `$(..)` captures: no zero bytes, no ends of lines at the end. -/
def captured (output : List UInt8) : List UInt8 :=
  (output.filter fun b => b ≠ 0).rdropWhile fun b => b = 10

def keyTypes : List String :=
  ["ssh-rsa", "ssh-ed25519", "ecdsa-sha2-nistp256", "ecdsa-sha2-nistp384", "ecdsa-sha2-nistp521"]

/-- The pattern of the `case`. -/
def isKey (line : List UInt8) : Bool :=
  keyTypes.any fun t => (Utf8.encode (t ++ " ").toList).isPrefixOf line

/-- The body of the loop: the key that a line is appended as. -/
def keyOf (l : Locale) (line : List UInt8) : Option (List UInt8) :=
  let key := l.trim line
  if key = [] then none else if isKey key then some key else none

def normalised (payload : List UInt8) : List UInt8 :=
  let payload := payload.filter fun b => b ≠ 13
  if [92, 110] <:+: payload then captured (bexpand 0 payload) else payload

/-- The lines that `append_ssh_keys_payload` appends. -/
def appendSshKeysPayload (l : Locale) (payload : List UInt8) : List (List UInt8) :=
  if payload = [] then [] else ((normalised payload).splitOn 10).filterMap (keyOf l)

def bytes (text : String) : List UInt8 := Utf8.encode text.toList

/-- An environment variable ends at the first zero byte. -/
def environment (value : String) : List UInt8 := (bytes value).takeWhile fun b => b ≠ 0

/-- The keys of a machine that is made for a list of keys. -/
def injected (l : Locale) (cpu ramMb : Int) (keys : List String) : List (List UInt8) :=
  match sshPublicKey (extraTemplateBase cpu ramMb (sanitizeSshPublicKeys keys)) with
  | none => []
  | some value => appendSshKeysPayload l (environment value)

end Script

section Trim

variable {spaces : List (List UInt8)} {text : List UInt8}

theorem trimStart_suffix (skip : ℕ) : trimStart spaces skip text <:+ text := by
  induction text generalizing skip with
  | nil => cases skip <;> exact List.suffix_rfl
  | cons c rest ih =>
    cases skip with
    | succ skip => exact (ih skip).trans (List.suffix_cons c rest)
    | zero =>
      simp only [trimStart]
      split
      · rename_i w hw
        exact (ih _).trans (List.suffix_cons c rest)
      · exact List.suffix_rfl

theorem trimStart_eq_self (h : ∀ w ∈ spaces, ¬ w <+: text) : trimStart spaces 0 text = text := by
  cases text with
  | nil => rfl
  | cons c rest =>
    have hnone : (spaces.find? fun w => w.isPrefixOf (c :: rest)) = none := by
      rw [List.find?_eq_none]
      intro w hw hp
      exact h w hw (List.isPrefixOf_iff_prefix.mp hp)
    simp only [trimStart, hnone]

theorem trim_sublist (l : Locale) (line : List UInt8) : (l.trim line).Sublist line := by
  have hfront : (trimStart l.spaces 0 line).Sublist line := (trimStart_suffix 0).sublist
  have hback : (trimStart (l.spaces.map List.reverse) 0 (trimStart l.spaces 0 line).reverse).Sublist
      (trimStart l.spaces 0 line).reverse := (trimStart_suffix 0).sublist
  have hrev := (hback.trans (List.reverse_sublist.mpr hfront)).reverse
  rw [List.reverse_reverse] at hrev
  exact hrev

theorem trim_eq_or_lt (l : Locale) (line : List UInt8) :
    l.trim line = line ∨ (l.trim line).length < line.length := by
  have hsub := trim_sublist l line
  rcases Nat.lt_or_eq_of_le hsub.length_le with hlt | heq
  · exact .inr hlt
  · exact .inl (hsub.eq_of_length heq)

theorem trim_encode (l : Locale) {cs : List Char} (hhead : ∀ c, cs.head? = some c → pySpace c = false)
    (hlast : ∀ c, cs.getLast? = some c → pySpace c = false) :
    l.trim (Utf8.encode cs) = Utf8.encode cs := by
  have hfront : trimStart l.spaces 0 (Utf8.encode cs) = Utf8.encode cs := by
    apply trimStart_eq_self
    intro w hw hp
    obtain ⟨c, hc, rfl⟩ := l.white w hw
    obtain ⟨v, hv⟩ := hp
    cases cs with
    | nil => simp [String.utf8EncodeChar_ne_nil] at hv
    | cons d cs =>
      rw [Utf8.encode_cons] at hv
      have heq : c = d := Utf8.eq_of_append_eq hv
      rw [heq, hhead d rfl] at hc
      cases hc
  have hback : trimStart (l.spaces.map List.reverse) 0 (Utf8.encode cs).reverse =
      (Utf8.encode cs).reverse := by
    apply trimStart_eq_self
    intro w hw hp
    obtain ⟨v, hv, rfl⟩ := List.mem_map.mp hw
    obtain ⟨c, hc, rfl⟩ := l.white v hv
    rw [List.reverse_prefix] at hp
    obtain ⟨v, hv⟩ := hp
    cases cs using List.reverseRecOn with
    | nil => simp [String.utf8EncodeChar_ne_nil] at hv
    | append_singleton cs d =>
      rw [Utf8.encode_append, Utf8.encode_cons, Utf8.encode_nil, List.append_nil] at hv
      have heq : c = d := Utf8.eq_of_append_eq' hv
      rw [heq, hlast d (by simp)] at hc
      cases hc
  rw [Locale.trim, hfront, hback, List.reverse_reverse]

end Trim

section Sanitised

/-- What the worker lets through. -/
structure Sanitised (k : String) : Prop where
  ne_empty : k ≠ ""
  head : ∀ c, k.toList.head? = some c → pySpace c = false
  last : ∀ c, k.toList.getLast? = some c → pySpace c = false
  typed : ∃ t ∈ allowedPrefixes, t.toList <+: k.toList

private theorem keepSshKey_sanitised {kept : List String} (h : ∀ k ∈ kept, Sanitised k)
    (raw : String) : ∀ k ∈ keepSshKey kept raw, Sanitised k := by
  simp only [keepSshKey]
  split
  · exact h
  rename_i hempty
  split
  · exact h
  split
  · exact h
  rename_i hallowed
  split
  · exact h
  have htyped : ∃ t ∈ allowedPrefixes, t.toList <+: (pyStrip raw).toList := by
    simpa [startsWith, List.isPrefixOf_iff_prefix] using hallowed
  intro k hk
  rcases List.mem_append.mp hk with hk | hk
  · exact h k hk
  · obtain rfl := List.mem_singleton.mp hk
    exact ⟨hempty, fun c => stripBy_head, fun c => stripBy_last, htyped⟩

theorem sanitised (keys : List String) : ∀ k ∈ sanitizeSshPublicKeys keys, Sanitised k := by
  have hall : ∀ kept : List String, (∀ k ∈ kept, Sanitised k) →
      ∀ k ∈ keys.foldl keepSshKey kept, Sanitised k := by
    induction keys with
    | nil => exact fun kept h => h
    | cons raw keys ih =>
      intro kept h
      rw [List.foldl_cons]
      exact ih (keepSshKey kept raw) (keepSshKey_sanitised h raw)
  exact hall [] (by simp)

/-- The machine takes a key that the worker let through if a blank follows the type. -/
theorem isKey_iff {k : String} (h : Sanitised k) :
    isKey (Utf8.encode k.toList) = true ↔ ∃ t ∈ allowedPrefixes, startsWith k (t ++ " ") = true := by
  have happart : ∀ t ∈ keyTypes, ∀ a ∈ allowedPrefixes, t ≠ a →
      ¬ a.toList <+: (t ++ " ").toList ∧ ¬ (t ++ " ").toList <+: a.toList := by decide
  have hsub : ∀ a ∈ allowedPrefixes, a ∈ keyTypes := by decide
  simp only [isKey, List.any_eq_true, List.isPrefixOf_iff_prefix, Utf8.encode_prefix_iff, startsWith]
  obtain ⟨a, ha, hak⟩ := h.typed
  constructor
  · rintro ⟨t, ht, htk⟩
    by_cases hta : t = a
    · exact ⟨a, ha, hta ▸ htk⟩
    · obtain ⟨hno, hno'⟩ := happart t ht a ha hta
      exact (List.prefix_or_prefix_of_prefix hak htk).elim (absurd · hno) (absurd · hno')
  · rintro ⟨t, ht, htk⟩
    exact ⟨t, hsub t ht, htk⟩

end Sanitised

section Sent

def sentLine (k : String) : List UInt8 := Utf8.encode (k.toList.flatMap oneLineChar)

theorem encode_keysForTemplate (keys : List String) :
    Utf8.encode (keysForTemplate keys).toList = joined (keys.map sentLine) := by
  rw [keysForTemplate, String.toList_ofList, String.toList_intercalate]
  induction keys with
  | nil => rfl
  | cons k keys ih =>
    cases keys with
    | nil => simp [joined, sentLine]
    | cons k' keys =>
      have hnewline : Utf8.encode ("\n".toList.flatMap oneLineChar) = [92, 110] := by decide
      simp only [List.map_cons, List.intercalate_cons_cons, List.flatMap_append,
        Utf8.encode_append, joined_cons_cons] at ih ⊢
      rw [ih, hnewline]
      simp [sentLine]

theorem newline_not_mem_sentLine (k : String) : (10 : UInt8) ∉ sentLine k := by
  have hten : String.utf8EncodeChar '\n' = [10] := by decide
  rw [sentLine, Utf8.mem_encode_iff hten (by decide), List.mem_flatMap]
  rintro ⟨c, -, hc⟩
  simp only [oneLineChar] at hc
  split at hc
  · cases hc
  split at hc
  · revert hc
    decide
  · rename_i hne
    exact hne (List.mem_singleton.mp hc).symm

/-- A key without ends of lines only loses its carriage returns. -/
theorem length_sentLine {k : String} (h : '\n' ∉ k.toList) :
    (sentLine k).length + k.toList.count '\r' = (Utf8.encode k.toList).length := by
  rw [sentLine]
  generalize k.toList = cs at h ⊢
  induction cs with
  | nil => rfl
  | cons c cs ih =>
    rw [List.mem_cons, not_or] at h
    have hrest := ih h.2
    rw [List.flatMap_cons, Utf8.encode_append, Utf8.encode_cons, List.length_append,
      List.length_append, List.count_cons]
    by_cases hc : c = '\r'
    · subst hc
      have hone : (String.utf8EncodeChar '\r').length = 1 := by decide
      simp only [oneLineChar, if_true, Utf8.encode_nil, List.length_nil, beq_self_eq_true]
      omega
    · have hchar : oneLineChar c = [c] := by simp [oneLineChar, hc, Ne.symm h.1]
      have hno : (c == '\r') = false := by simp [hc]
      simp only [hchar, Utf8.encode_cons, Utf8.encode_nil, List.append_nil, hno]
      simp only [Bool.false_eq_true, if_false]
      omega

theorem sentLine_eq {k : String} (hreturn : '\r' ∉ k.toList) (hnewline : '\n' ∉ k.toList) :
    sentLine k = Utf8.encode k.toList := by
  rw [sentLine]
  congr 1
  generalize k.toList = cs at hreturn hnewline ⊢
  induction cs with
  | nil => rfl
  | cons c cs ih =>
    rw [List.mem_cons, not_or] at hreturn hnewline
    have hchar : oneLineChar c = [c] := by
      simp [oneLineChar, Ne.symm hreturn.1, Ne.symm hnewline.1]
    rw [List.flatMap_cons, hchar, ih hreturn.2 hnewline.2]
    rfl

end Sent

section Journey

/-- A key that stays on one line and that the machine takes. -/
structure Plain (k : String) : Prop where
  noZero : '\x00' ∉ k.toList
  noReturn : '\r' ∉ k.toList
  noNewline : '\n' ∉ k.toList
  typed : ∃ t ∈ allowedPrefixes, startsWith k (t ++ " ") = true

/-- A single key is expanded only if it holds what stands for the end of a line; several keys are
always expanded. -/
def Passes : List (List UInt8) → Prop
  | [line] => ¬ [92, 110] <:+: line
  | lines => Separate lines

private def size (line : List UInt8) : ℕ := line.length + 2

private theorem sum_size {lines : List (List UInt8)} (hne : lines ≠ []) :
    (lines.map size).sum = (joined lines).length + 2 := by
  have hsum : ∀ ls : List (List UInt8),
      (ls.map size).sum = (ls.map List.length).sum + 2 * ls.length := by
    intro ls
    induction ls with
    | nil => rfl
    | cons line ls ih =>
      rw [List.map_cons, List.sum_cons, ih, List.map_cons, List.sum_cons, List.length_cons, size]
      omega
  rw [hsum, length_joined hne]

private theorem keyOf_size (l : Locale) (line key : List UInt8) (h : keyOf l line = some key) :
    key = line ∨ size key < size line := by
  simp only [keyOf] at h
  split at h
  · cases h
  split at h
  · obtain rfl := Option.some.inj h
    rcases trim_eq_or_lt l line with heq | hlt
    · exact .inl heq
    · right
      rw [size, size]
      omega
  · cases h

private theorem isKey_of_keyOf {l : Locale} {line key : List UInt8} (h : keyOf l line = some key) :
    isKey key = true := by
  simp only [keyOf] at h
  split at h
  · cases h
  split at h
  · rename_i hkey
    rw [← Option.some.inj h]
    exact hkey
  · cases h

private theorem captured_sublist (output : List UInt8) : (captured output).Sublist output :=
  (List.rdropWhile_prefix _ _).sublist.trans List.filter_sublist

private theorem normalised_weight {payload : List UInt8} (h : (10 : UInt8) ∉ payload)
    (hreturn : (13 : UInt8) ∉ payload) :
    weight (normalised payload) ≤ payload.length ∧
      (weight (normalised payload) = payload.length →
        normalised payload = if [92, 110] <:+: payload then bexpand 0 payload else payload) := by
  have hfilter : (payload.filter fun b => b ≠ 13) = payload := by
    rw [List.filter_eq_self]
    intro b hb
    simp only [decide_eq_true_eq]
    rintro rfl
    exact hreturn hb
  simp only [normalised, hfilter]
  by_cases hin : [92, 110] <:+: payload
  · have hle := weight_bexpand_le h 0
    have hsub := captured_sublist (bexpand 0 payload)
    have hlen := hsub.length_le
    have hcount := hsub.count_le 10
    rw [List.drop_zero] at hle
    simp only [if_pos hin]
    simp only [weight] at hle ⊢
    refine ⟨by omega, ?_⟩
    intro heq
    exact hsub.eq_of_length (by omega)
  · simp only [if_neg hin]
    exact ⟨(weight_of_not_mem h).le, fun _ => trivial⟩

variable (l : Locale) (cpu ramMb : Int) (keys : List String)

private theorem injected_nil (h : sanitizeSshPublicKeys keys = []) :
    injected l cpu ramMb keys = [] := by
  rw [injected, sshPublicKey_extraTemplateBase, h]
  rfl

private theorem injected_eq (h : sanitizeSshPublicKeys keys ≠ []) :
    injected l cpu ramMb keys = appendSshKeysPayload l
      ((joined ((sanitizeSshPublicKeys keys).map sentLine)).takeWhile fun b => b ≠ 0) := by
  have hne : String.intercalate "\n" (sanitizeSshPublicKeys keys) ≠ "" := by
    have hall := sanitised keys
    cases hkeys : sanitizeSshPublicKeys keys with
    | nil => exact absurd hkeys h
    | cons k ks =>
      rw [hkeys] at hall
      have hk : k.toList ≠ [] := by
        intro hnil
        exact (hall k (by simp)).ne_empty (String.toList_eq_nil_iff.mp hnil)
      intro hempty
      have hlist := congrArg String.toList hempty
      rw [String.toList_intercalate] at hlist
      cases ks with
      | nil => simp [hk] at hlist
      | cons k' ks => simp [List.intercalate_cons_cons, hk] at hlist
  rw [injected, sshPublicKey_extraTemplateBase, if_neg hne]
  simp only [environment, bytes, encode_keysForTemplate]

variable {l : Locale} {ks : List String}

private theorem keyOf_subset {line key : List UInt8} (h : keyOf l line = some key) :
    key ⊆ line := by
  simp only [keyOf] at h
  split at h
  · cases h
  split at h
  · rw [← Option.some.inj h]
    exact (trim_sublist l line).subset
  · cases h

private theorem return_not_mem_sent : ∀ line ∈ ks.map sentLine, (13 : UInt8) ∉ line := by
  have hthirteen : String.utf8EncodeChar '\r' = [13] := by decide
  intro line hline
  obtain ⟨k, -, rfl⟩ := List.mem_map.mp hline
  rw [sentLine, Utf8.mem_encode_iff hthirteen (by decide), List.mem_flatMap]
  rintro ⟨c, -, hc⟩
  simp only [oneLineChar] at hc
  split at hc
  · cases hc
  · rename_i hne
    split at hc
    · revert hc
      decide
    · exact hne (List.mem_singleton.mp hc).symm

private theorem not_mem_joined {b : UInt8} (h92 : b ≠ 92) (h110 : b ≠ 110)
    {lines : List (List UInt8)} : b ∉ joined lines ↔ ∀ line ∈ lines, b ∉ line := by
  induction lines with
  | nil => simp [joined, List.intercalate_nil]
  | cons line lines ih =>
    rw [List.forall_mem_cons]
    cases lines with
    | nil => simp [joined, List.intercalate_singleton]
    | cons line' lines =>
      rw [joined_cons_cons, ← ih]
      simp [h92, h110]

theorem passes_iff {lines : List (List UInt8)} (hne : lines ≠ [])
    (h : ∀ line ∈ lines, (10 : UInt8) ∉ line) :
    (if [92, 110] <:+: joined lines then bexpand 0 (joined lines) else joined lines) =
      [10].intercalate lines ↔ Passes lines := by
  have hiff := bexpand_joined_iff hne h
  match lines, hne, hiff with
  | [line], _, hiff =>
    by_cases hin : [92, 110] <:+: joined [line]
    · have hline : [92, 110] <:+: line := by simpa [joined] using hin
      rw [if_pos hin, hiff]
      simp only [Passes, hline, not_true_eq_false, iff_false]
      intro hseparate
      obtain ⟨u, v, huv⟩ := hline
      have hsuffix : 92 :: 110 :: v <:+ line := ⟨u, by simpa using huv⟩
      have hnone := hseparate.1 line (by simp) _ hsuffix
      cases hnone
    · have hline : ¬ [92, 110] <:+: line := by simpa [joined] using hin
      rw [if_neg hin]
      simp [Passes, hline, joined]
  | line :: line' :: lines, _, hiff =>
    have hin : [92, 110] <:+: joined (line :: line' :: lines) :=
      ⟨line, joined (line' :: lines), by simp [joined_cons_cons]⟩
    rw [if_pos hin, hiff]
    rfl

private theorem journey_of_appended (hne : ks ≠ [])
    (h : appendSshKeysPayload l ((joined (ks.map sentLine)).takeWhile fun b => b ≠ 0) =
      ks.map bytes) :
    (∀ k ∈ ks, '\n' ∉ k.toList ∧ '\r' ∉ k.toList ∧ '\x00' ∉ k.toList ∧ isKey (bytes k) = true) ∧
      Passes (ks.map bytes) := by
  have hlines : ks.map sentLine ≠ [] := by simpa using hne
  have hkeys : ks.map bytes ≠ [] := by simpa using hne
  let sent := joined (ks.map sentLine)
  let payload := sent.takeWhile fun b => b ≠ 0
  let pieces := (normalised payload).splitOn 10
  have hten : (10 : UInt8) ∉ sent := by
    apply newline_not_mem_joined
    intro line hline
    obtain ⟨k, -, rfl⟩ := List.mem_map.mp hline
    exact newline_not_mem_sentLine k
  have hthirteen : (13 : UInt8) ∉ sent :=
    (not_mem_joined (by decide) (by decide)).mpr return_not_mem_sent
  have hsub : payload.Sublist sent := List.takeWhile_sublist _
  have hout : pieces.filterMap (keyOf l) = ks.map bytes := by
    rw [appendSshKeysPayload] at h
    split at h
    · exact absurd h.symm hkeys
    · exact h
  -- every line that is appended comes out of a piece without an end of a line
  have hpiece : ∀ k ∈ ks, (10 : UInt8) ∉ bytes k ∧ isKey (bytes k) = true := by
    intro k hk
    have hmem : bytes k ∈ pieces.filterMap (keyOf l) := by
      rw [hout]
      exact List.mem_map_of_mem hk
    obtain ⟨piece, hpiece, hkey⟩ := List.mem_filterMap.mp hmem
    refine ⟨?_, isKey_of_keyOf hkey⟩
    intro hm
    exact Lines.not_mem_of_mem_splitOn hpiece (keyOf_subset hkey hm)
  have hnewline : ∀ k ∈ ks, '\n' ∉ k.toList := by
    have hchar : String.utf8EncodeChar '\n' = [10] := by decide
    intro k hk hm
    exact (hpiece k hk).1 ((Utf8.mem_encode_iff hchar (by decide)).mpr hm)
  have hlen : ∀ k ∈ ks, size (sentLine k) ≤ size (bytes k) := by
    intro k hk
    have hcount := length_sentLine (hnewline k hk)
    rw [size, size, bytes]
    omega
  -- the sizes along the way
  have hsent : ((ks.map sentLine).map size).sum ≤ ((ks.map bytes).map size).sum := by
    rw [List.map_map, List.map_map]
    exact List.sum_le_sum hlen
  have hpieces : (pieces.map size).sum = weight (normalised payload) + 2 := by
    have hno : ∀ piece ∈ pieces, (10 : UInt8) ∉ piece := fun piece hp =>
      Lines.not_mem_of_mem_splitOn hp
    rw [sum_size (List.splitOn_ne_nil _ _), ← weight_intercalate hno, List.intercalate_splitOn]
  have hpos : ∀ line, 0 < size line := fun line => Nat.succ_pos _
  obtain ⟨hfilter, hfiltered⟩ := Lines.filterMap_sum hpos (keyOf_size l) pieces
  obtain ⟨hweight, hnormal⟩ := normalised_weight (fun hm => hten (hsub.subset hm))
    fun hm => hthirteen (hsub.subset hm)
  have hpayload := hsub.length_le
  have hsum : ((ks.map sentLine).map size).sum = sent.length + 2 := sum_size hlines
  rw [hout] at hfilter hfiltered
  -- they all agree
  have hsame : ks.map bytes = pieces := hfiltered (by omega)
  have hwhole : payload = sent := hsub.eq_of_length (by omega)
  have hreturn : ∀ k ∈ ks, '\r' ∉ k.toList := by
    intro k hk hm
    have hcount := length_sentLine (hnewline k hk)
    have hpos := List.count_pos_iff.mpr hm
    have hlt : ((ks.map sentLine).map size).sum < ((ks.map bytes).map size).sum := by
      rw [List.map_map, List.map_map]
      apply List.sum_lt_sum _ _ hlen
      refine ⟨k, hk, ?_⟩
      simp only [size, bytes]
      omega
    omega
  have hbytes : ks.map sentLine = ks.map bytes := by
    apply List.map_congr_left
    intro k hk
    exact sentLine_eq (hreturn k hk) (hnewline k hk)
  have hzero : ∀ k ∈ ks, '\x00' ∉ k.toList := by
    have hchar : String.utf8EncodeChar '\x00' = [0] := by decide
    have hnot : (0 : UInt8) ∉ joined (ks.map bytes) := by
      intro hm
      rw [← hbytes] at hm
      have hall := List.takeWhile_eq_self_iff.mp hwhole 0 hm
      simp at hall
    intro k hk hm
    have hline := (not_mem_joined (by decide) (by decide)).mp hnot _ (List.mem_map_of_mem hk)
    exact hline ((Utf8.mem_encode_iff hchar (by decide)).mpr hm)
  refine ⟨fun k hk => ⟨hnewline k hk, hreturn k hk, hzero k hk, (hpiece k hk).2⟩, ?_⟩
  have hno : ∀ line ∈ ks.map bytes, (10 : UInt8) ∉ line := by
    intro line hline
    obtain ⟨k, hk, rfl⟩ := List.mem_map.mp hline
    exact (hpiece k hk).1
  apply (passes_iff hkeys hno).mp
  rw [← hbytes, ← show payload = joined (ks.map sentLine) from hwhole, ← hnormal (by omega), hbytes,
    hsame, List.intercalate_splitOn]

private theorem last_intercalate {lines : List (List UInt8)}
    (h : ∀ line ∈ lines, line ≠ [] ∧ (10 : UInt8) ∉ line) :
    ∀ b, ([10].intercalate lines).getLast? = some b → b ≠ 10 := by
  induction lines with
  | nil => simp [List.intercalate_nil]
  | cons line lines ih =>
    rw [List.forall_mem_cons] at h
    cases lines with
    | nil =>
      rw [List.intercalate_singleton]
      rintro b hb rfl
      exact h.1.2 (List.mem_of_getLast? hb)
    | cons line' lines =>
      have hne : [10].intercalate (line' :: lines) ≠ [] := by
        have hline := (h.2 line' (by simp)).1
        cases lines with
        | nil => simpa using hline
        | cons line'' lines => simp [List.intercalate_cons_cons, hline]
      rw [List.intercalate_cons_cons, List.getLast?_append_of_ne_nil _ hne]
      exact ih h.2

private theorem captured_eq {output : List UInt8} (hzero : (0 : UInt8) ∉ output)
    (hlast : ∀ b, output.getLast? = some b → b ≠ 10) : captured output = output := by
  have hfilter : (output.filter fun b => b ≠ 0) = output := by
    rw [List.filter_eq_self]
    intro b hb
    simp only [decide_eq_true_eq]
    rintro rfl
    exact hzero hb
  rw [captured, hfilter, List.rdropWhile_eq_self_iff]
  intro hne
  simpa using hlast _ (List.getLast?_eq_some_getLast hne)

private theorem keyOf_bytes {k : String} (h : Sanitised k) (hkey : isKey (bytes k) = true) :
    keyOf l (bytes k) = some (bytes k) := by
  have htrim : l.trim (bytes k) = bytes k := trim_encode l h.head h.last
  have hne : bytes k ≠ [] := by
    rw [bytes, Ne, Utf8.encode_eq_nil, String.toList_eq_nil_iff]
    exact h.ne_empty
  simp only [keyOf, htrim, if_neg hne, hkey, if_true]

private theorem not_mem_intercalate {b : UInt8} (hb : b ≠ 10) {lines : List (List UInt8)}
    (h : ∀ line ∈ lines, b ∉ line) : b ∉ [10].intercalate lines := by
  induction lines with
  | nil => simp [List.intercalate_nil]
  | cons line lines ih =>
    rw [List.forall_mem_cons] at h
    cases lines with
    | nil => simpa [List.intercalate_singleton] using h.1
    | cons line' lines =>
      rw [List.intercalate_cons_cons]
      simp [h.1, hb, ih h.2]

private theorem appended_of_passes (hne : ks ≠ []) (hks : ∀ k ∈ ks, Sanitised k)
    (hplain : ∀ k ∈ ks, '\n' ∉ k.toList ∧ '\r' ∉ k.toList ∧ '\x00' ∉ k.toList ∧
      isKey (bytes k) = true) (hpass : Passes (ks.map bytes)) :
    appendSshKeysPayload l ((joined (ks.map sentLine)).takeWhile fun b => b ≠ 0) =
      ks.map bytes := by
  have hkeys : ks.map bytes ≠ [] := by simpa using hne
  have hbytes : ks.map sentLine = ks.map bytes := by
    apply List.map_congr_left
    intro k hk
    exact sentLine_eq (hplain k hk).2.1 (hplain k hk).1
  have habsent : ∀ {c : Char} {b : UInt8}, String.utf8EncodeChar c = [b] → b < 128 →
      (∀ k ∈ ks, c ∉ k.toList) → ∀ line ∈ ks.map bytes, b ∉ line := by
    intro c b hc hb hall line hline hm
    obtain ⟨k, hk, rfl⟩ := List.mem_map.mp hline
    exact hall k hk ((Utf8.mem_encode_iff hc hb).mp hm)
  have hten : ∀ line ∈ ks.map bytes, (10 : UInt8) ∉ line :=
    habsent (c := '\n') (by decide) (by decide) fun k hk => (hplain k hk).1
  have hthirteen : ∀ line ∈ ks.map bytes, (13 : UInt8) ∉ line :=
    habsent (c := '\r') (by decide) (by decide) fun k hk => (hplain k hk).2.1
  have hzero : ∀ line ∈ ks.map bytes, (0 : UInt8) ∉ line :=
    habsent (c := '\x00') (by decide) (by decide) fun k hk => (hplain k hk).2.2.1
  have hfull : ∀ line ∈ ks.map bytes, line ≠ [] ∧ (10 : UInt8) ∉ line := by
    intro line hline
    refine ⟨?_, hten line hline⟩
    obtain ⟨k, hk, rfl⟩ := List.mem_map.mp hline
    rw [bytes, Ne, Utf8.encode_eq_nil, String.toList_eq_nil_iff]
    exact (hks k hk).ne_empty
  have hsent : (joined (ks.map bytes)).takeWhile (fun b => b ≠ 0) = joined (ks.map bytes) := by
    rw [List.takeWhile_eq_self_iff]
    intro b hb
    simp only [decide_eq_true_eq]
    rintro rfl
    exact (not_mem_joined (by decide) (by decide)).mpr hzero hb
  have hsome : joined (ks.map bytes) ≠ [] := by
    intro hnil
    have hlen := length_joined hkeys
    have hpos : 0 < ((ks.map bytes).map List.length).sum := by
      apply List.sum_pos
      · intro n hn
        obtain ⟨line, hline, rfl⟩ := List.mem_map.mp hn
        exact List.length_pos_of_ne_nil (hfull line hline).1
      · simpa using hne
    have hcount : 0 < (ks.map bytes).length := List.length_pos_of_ne_nil hkeys
    rw [hnil, List.length_nil] at hlen
    omega
  have hfilter : (joined (ks.map bytes)).filter (fun b => b ≠ 13) = joined (ks.map bytes) := by
    rw [List.filter_eq_self]
    intro b hb
    simp only [decide_eq_true_eq]
    rintro rfl
    exact (not_mem_joined (by decide) (by decide)).mpr hthirteen hb
  have hnormal : normalised (joined (ks.map bytes)) = [10].intercalate (ks.map bytes) := by
    have hexpand := (passes_iff hkeys hten).mpr hpass
    simp only [normalised, hfilter]
    split
    · rename_i hin
      rw [if_pos hin] at hexpand
      rw [hexpand]
      exact captured_eq (not_mem_intercalate (by decide) hzero) (last_intercalate hfull)
    · rename_i hin
      rw [if_neg hin] at hexpand
      exact hexpand
  rw [appendSshKeysPayload, hbytes, hsent, if_neg hsome, hnormal,
    List.splitOn_intercalate 10 hten hkeys, List.filterMap_map, ← List.filterMap_eq_map]
  apply List.filterMap_congr
  intro k hk
  exact keyOf_bytes (hks k hk) (hplain k hk).2.2.2

/-- The keys of a machine are the sanitised keys, one line each, exactly if each of them stays on
one line under a known type and nothing in them is taken for an escape. -/
theorem keys_injected_iff (l : Locale) (cpu ramMb : Int) (keys : List String) :
    injected l cpu ramMb keys = (sanitizeSshPublicKeys keys).map bytes ↔
      (∀ k ∈ sanitizeSshPublicKeys keys, Plain k) ∧
        Passes ((sanitizeSshPublicKeys keys).map bytes) := by
  by_cases hne : sanitizeSshPublicKeys keys = []
  · rw [injected_nil l cpu ramMb keys hne, hne]
    simp [Passes, Separate]
  have hks := sanitised keys
  rw [injected_eq l cpu ramMb keys hne]
  constructor
  · intro h
    obtain ⟨hall, hpass⟩ := journey_of_appended hne h
    refine ⟨?_, hpass⟩
    intro k hk
    obtain ⟨hnewline, hreturn, hzero, hkey⟩ := hall k hk
    exact ⟨hzero, hreturn, hnewline, (isKey_iff (hks k hk)).mp hkey⟩
  · rintro ⟨hall, hpass⟩
    apply appended_of_passes hne hks _ hpass
    intro k hk
    have hplain := hall k hk
    exact ⟨hplain.noNewline, hplain.noReturn, hplain.noZero, (isKey_iff (hks k hk)).mpr hplain.typed⟩

def posix : Locale where
  spaces := [[9], [10], [11], [12], [13], [32]]
  white := by
    intro w hw
    refine ⟨Char.ofNat (w.headD 0).toNat, ?_⟩
    revert w
    decide

/-- A backslash and an `n` in a comment, as in the name of a Windows account, cut the key. -/
theorem comment_cuts_key :
    injected posix 1 1024 ["ssh-ed25519 AAAA CORP\\nick"] = [bytes "ssh-ed25519 AAAA CORP"] ∧
      sanitizeSshPublicKeys ["ssh-ed25519 AAAA CORP\\nick"] = ["ssh-ed25519 AAAA CORP\\nick"] ∧
      injected posix 1 1024 ["ssh-ed25519 AAAA CORP\\nick"] ≠
        (sanitizeSshPublicKeys ["ssh-ed25519 AAAA CORP\\nick"]).map bytes := by
  decide +kernel

end Journey

end CloudVM.Guest
