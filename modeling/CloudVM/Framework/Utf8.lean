import Mathlib.Data.List.Basic
import Mathlib.Tactic.Common

/-!
# Texts as bytes

The UTF-8 form of a text. An ASCII byte stands for its own character, and the encoding of a
character at either end of a text can be told from the bytes.
-/

namespace CloudVM.Utf8

def encode (cs : List Char) : List UInt8 := cs.flatMap String.utf8EncodeChar

@[simp] theorem encode_nil : encode [] = [] := rfl

@[simp] theorem encode_append (u v : List Char) : encode (u ++ v) = encode u ++ encode v := by
  simp [encode]

theorem encode_cons (c : Char) (cs : List Char) :
    encode (c :: cs) = String.utf8EncodeChar c ++ encode cs := rfl

theorem encode_eq_nil {cs : List Char} : encode cs = [] ↔ cs = [] := by
  cases cs with
  | nil => simp
  | cons c cs => simp [encode_cons, String.utf8EncodeChar_ne_nil]

private theorem not_small {b : UInt8} (hb : b < 128) {n : ℕ} (hn : n < 256) (hle : 128 ≤ n) :
    b ≠ UInt8.ofNat n := by
  rintro rfl
  have hlt : (UInt8.ofNat n).toNat < 128 := hb
  rw [UInt8.toNat_ofNat'] at hlt
  omega

theorem eq_of_mem {b : UInt8} {c : Char} (h : b ∈ String.utf8EncodeChar c) (hb : b < 128) :
    c.toNat = b.toNat := by
  have hc : c.val.toNat = c.toNat := rfl
  simp only [String.utf8EncodeChar] at h
  split at h
  · rw [List.mem_singleton] at h
    subst h
    rw [UInt8.toNat_ofNat']
    omega
  exfalso
  split at h
  · rcases List.mem_cons.mp h with h | h
    · exact not_small hb (by omega) (by omega) h
    · exact not_small hb (by omega) (by omega) (List.mem_singleton.mp h)
  split at h
  · rcases List.mem_cons.mp h with h | h
    · exact not_small hb (by omega) (by omega) h
    rcases List.mem_cons.mp h with h | h
    · exact not_small hb (by omega) (by omega) h
    · exact not_small hb (by omega) (by omega) (List.mem_singleton.mp h)
  · rcases List.mem_cons.mp h with h | h
    · exact not_small hb (by omega) (by omega) h
    rcases List.mem_cons.mp h with h | h
    · exact not_small hb (by omega) (by omega) h
    rcases List.mem_cons.mp h with h | h
    · exact not_small hb (by omega) (by omega) h
    · exact not_small hb (by omega) (by omega) (List.mem_singleton.mp h)

/-- An ASCII byte occurs exactly where its character does. -/
theorem mem_encode_iff {b : UInt8} {a : Char} (ha : String.utf8EncodeChar a = [b])
    (hb : b < 128) {cs : List Char} : b ∈ encode cs ↔ a ∈ cs := by
  rw [encode, List.mem_flatMap]
  constructor
  · rintro ⟨c, hc, hmem⟩
    have hself : b ∈ String.utf8EncodeChar a := by simp [ha]
    have heq : c.toNat = a.toNat := (eq_of_mem hmem hb).trans (eq_of_mem hself hb).symm
    rw [← Char.toNat_inj.mp heq]
    exact hc
  · intro hmem
    exact ⟨a, hmem, by simp [ha]⟩

private theorem decode_append (c : Char) (rest : List UInt8) :
    ((String.utf8EncodeChar c ++ rest).toByteArray).utf8DecodeChar? 0 = some c := by
  rw [List.toByteArray_append]
  exact ByteArray.utf8DecodeChar?_utf8EncodeChar_append

theorem eq_of_append_eq {c d : Char} {u v : List UInt8}
    (h : String.utf8EncodeChar c ++ u = String.utf8EncodeChar d ++ v) : c = d := by
  have hc := decode_append c u
  rw [h, decode_append] at hc
  exact (Option.some.inj hc).symm

private theorem eq_of_suffix {c d : Char} {z : List UInt8}
    (h : String.utf8EncodeChar d = z ++ String.utf8EncodeChar c) : c = d := by
  have hlt : z.length < (String.utf8EncodeChar d).length := by
    have hpos := List.length_pos_of_ne_nil (String.utf8EncodeChar_ne_nil (c := c))
    rw [h, List.length_append]
    omega
  have hpos : 0 < (String.utf8EncodeChar c).length :=
    List.length_pos_of_ne_nil String.utf8EncodeChar_ne_nil
  have hbyte : (String.utf8EncodeChar d)[z.length] = (String.utf8EncodeChar c)[0] := by
    simp [h]
  -- a byte that may come first does so
  have hfirst : (String.utf8EncodeChar d)[z.length].IsUTF8FirstByte := by
    rw [hbyte]
    simp
  have hz : z = [] := List.eq_nil_of_length_eq_zero (by simpa using hfirst)
  apply eq_of_append_eq (u := []) (v := [])
  simp [h, hz]

theorem eq_of_append_eq' {c d : Char} {u v : List UInt8}
    (h : u ++ String.utf8EncodeChar c = v ++ String.utf8EncodeChar d) : c = d := by
  rcases List.append_eq_append_iff.mp h with ⟨z, -, hz⟩ | ⟨z, -, hz⟩
  · exact (eq_of_suffix hz).symm
  · exact eq_of_suffix hz

/-- Bytes begin like those of a text exactly when their text does. -/
theorem encode_prefix_iff {u v : List Char} : encode u <+: encode v ↔ u <+: v := by
  constructor
  · intro h
    induction u generalizing v with
    | nil => exact List.nil_prefix
    | cons c u ih =>
      obtain ⟨z, hz⟩ := h
      cases v with
      | nil => simp [encode_cons, String.utf8EncodeChar_ne_nil] at hz
      | cons d v =>
        rw [encode_cons, encode_cons, List.append_assoc] at hz
        have hcd : c = d := eq_of_append_eq hz
        subst hcd
        have hrest : encode u <+: encode v := ⟨z, List.append_cancel_left hz⟩
        exact List.prefix_cons_inj c |>.mpr (ih hrest)
  · rintro ⟨z, rfl⟩
    exact ⟨encode z, (encode_append u z).symm⟩

section Bytes

private theorem loop_eq (bytes : ByteArray) (i : ℕ) (r : List UInt8) :
    ByteArray.toList.loop bytes i r = r.reverse ++ bytes.data.toList.drop i := by
  fun_induction ByteArray.toList.loop bytes i r with
  | case1 i r h ih =>
    have hlt : i < bytes.data.toList.length := by simpa using h
    have hget : bytes.get! i = bytes.data.toList[i] := by
      change bytes.data[i]! = _
      rw [getElem!_pos bytes.data i h]
      rfl
    rw [ih, List.drop_eq_getElem_cons hlt, hget]
    simp
  | case2 i r h =>
    have hle : bytes.data.toList.length ≤ i := by simpa using h
    rw [List.drop_eq_nil_iff.mpr hle, List.append_nil]

theorem toList_toUTF8 (s : String) : s.toUTF8.toList = encode s.toList := by
  rw [ByteArray.toList, loop_eq, String.toUTF8_eq_toByteArray, ← String.utf8Encode_toList,
    List.utf8Encode, List.data_toByteArray]
  rfl

theorem fromUTF8?_encode (s : String) :
    String.fromUTF8? (ByteArray.mk (encode s.toList).toArray) = some s := by
  have hbytes : ByteArray.mk (encode s.toList).toArray = s.toByteArray := by
    rw [← String.utf8Encode_toList, List.utf8Encode]
    ext1
    rw [List.data_toByteArray]
    rfl
  rw [hbytes, String.fromUTF8?, dif_pos s.isValidUTF8]
  rfl

end Bytes

section Decoder

def replacement : Char := Char.ofNat 0xfffd

/-- What the bytes so far leave open: a number of further bytes, the range of the next one, and
the bits that are known. -/
inductive Partial where
  | idle
  | due (needed low high bits : ℕ)

def lead (b : ℕ) : List Char × Partial :=
  if b < 0x80 then ([Char.ofNat b], .idle)
  else if 0xc2 ≤ b ∧ b ≤ 0xdf then ([], .due 1 0x80 0xbf (b - 0xc0))
  else if 0xe0 ≤ b ∧ b ≤ 0xef then
    ([], .due 2 (if b = 0xe0 then 0xa0 else 0x80) (if b = 0xed then 0x9f else 0xbf) (b - 0xe0))
  else if 0xf0 ≤ b ∧ b ≤ 0xf4 then
    ([], .due 3 (if b = 0xf0 then 0x90 else 0x80) (if b = 0xf4 then 0x8f else 0xbf) (b - 0xf0))
  else ([replacement], .idle)

/-- A byte that does not continue the character ends it and is read again. -/
def next : Partial → ℕ → List Char × Partial
  | .idle, b => lead b
  | .due needed low high bits, b =>
    if low ≤ b ∧ b ≤ high then
      if needed = 1 then ([Char.ofNat (bits * 64 + (b - 0x80))], .idle)
      else ([], .due (needed - 1) 0x80 0xbf (bits * 64 + (b - 0x80)))
    else (replacement :: (lead b).1, (lead b).2)

def decodeFrom : Partial → List UInt8 → List Char
  | .idle, [] => []
  | .due _ _ _ _, [] => [replacement]
  | p, b :: bytes => (next p b.toNat).1 ++ decodeFrom (next p b.toNat).2 bytes

/-- The text of any bytes, U+FFFD for each part that is not UTF-8. -/
def decodeLossy (bytes : List UInt8) : List Char := decodeFrom .idle bytes

private theorem decodeFrom_cons (p : Partial) (b : UInt8) (bytes : List UInt8) :
    decodeFrom p (b :: bytes) = (next p b.toNat).1 ++ decodeFrom (next p b.toNat).2 bytes := by
  cases p <;> rfl

private theorem decodeFrom_ofNat (p : Partial) {n : ℕ} (hn : n < 256) (bytes : List UInt8) :
    decodeFrom p (UInt8.ofNat n :: bytes) = (next p n).1 ++ decodeFrom (next p n).2 bytes := by
  rw [decodeFrom_cons, UInt8.toNat_ofNat', Nat.mod_eq_of_lt hn]

private theorem next_more {needed low high bits b : ℕ} (h : low ≤ b ∧ b ≤ high) (hn : needed ≠ 1) :
    next (.due needed low high bits) b =
      ([], .due (needed - 1) 0x80 0xbf (bits * 64 + (b - 0x80))) := by
  rw [next, if_pos h, if_neg hn]

private theorem next_last {low high bits b : ℕ} (h : low ≤ b ∧ b ≤ high) :
    next (.due 1 low high bits) b = ([Char.ofNat (bits * 64 + (b - 0x80))], .idle) := by
  rw [next, if_pos h, if_pos rfl]

theorem decodeFrom_encodeChar (c : Char) (bytes : List UInt8) :
    decodeFrom .idle (String.utf8EncodeChar c ++ bytes) = c :: decodeFrom .idle bytes := by
  have hvalid : c.val.toNat < 0xd800 ∨ 0xdfff < c.val.toNat ∧ c.val.toNat < 0x110000 := c.valid
  have hself : ∀ n, n = c.val.toNat → Char.ofNat n = c := by
    rintro n rfl
    exact Char.ofNat_toNat c
  rw [String.utf8EncodeChar]
  generalize c.val.toNat = v at hvalid hself ⊢
  split
  · have hlead : lead v = ([Char.ofNat v], .idle) := if_pos (by omega)
    rw [List.singleton_append, decodeFrom_ofNat _ (by omega), next, hlead, hself v rfl]
    rfl
  split
  · have hlead : lead (v / 64 % 0x20 + 0xc0) = ([], .due 1 0x80 0xbf (v / 64)) := by
      have hbits : v / 64 % 0x20 + 0xc0 - 0xc0 = v / 64 := by omega
      rw [lead, if_neg (by omega), if_pos (by omega), hbits]
    rw [List.cons_append, List.singleton_append, decodeFrom_ofNat _ (by omega), next, hlead,
      decodeFrom_ofNat _ (by omega), next_last (by omega), hself _ (by omega)]
    rfl
  split
  · have hlead : ∃ low high, lead (v / 4096 % 0x10 + 0xe0) = ([], .due 2 low high (v / 4096)) ∧
        low ≤ v / 64 % 0x40 + 0x80 ∧ v / 64 % 0x40 + 0x80 ≤ high := by
      rw [lead, if_neg (by omega), if_neg (by omega), if_pos (by omega)]
      have hbits : v / 4096 % 0x10 + 0xe0 - 0xe0 = v / 4096 := by omega
      refine ⟨_, _, by rw [hbits], ?_, ?_⟩
      · split <;> omega
      · split <;> omega
    obtain ⟨low, high, hlead, hrange⟩ := hlead
    rw [List.cons_append, List.cons_append, List.singleton_append, decodeFrom_ofNat _ (by omega),
      next, hlead, decodeFrom_ofNat _ (by omega), next_more hrange (by omega),
      decodeFrom_ofNat _ (by omega), next_last (by omega), hself _ (by omega)]
    rfl
  · have hlead : ∃ low high, lead (v / 262144 % 0x08 + 0xf0) = ([], .due 3 low high (v / 262144)) ∧
        low ≤ v / 4096 % 0x40 + 0x80 ∧ v / 4096 % 0x40 + 0x80 ≤ high := by
      rw [lead, if_neg (by omega), if_neg (by omega), if_neg (by omega), if_pos (by omega)]
      have hbits : v / 262144 % 0x08 + 0xf0 - 0xf0 = v / 262144 := by omega
      refine ⟨_, _, by rw [hbits], ?_, ?_⟩
      · split <;> omega
      · split <;> omega
    obtain ⟨low, high, hlead, hrange⟩ := hlead
    rw [List.cons_append, List.cons_append, List.cons_append, List.singleton_append,
      decodeFrom_ofNat _ (by omega), next, hlead, decodeFrom_ofNat _ (by omega),
      next_more hrange (by omega), decodeFrom_ofNat _ (by omega), next_more (by omega) (by omega),
      decodeFrom_ofNat _ (by omega), next_last (by omega), hself _ (by omega)]
    rfl

theorem decodeLossy_encode (cs : List Char) : decodeLossy (encode cs) = cs := by
  induction cs with
  | nil => rfl
  | cons c cs ih =>
    rw [decodeLossy] at ih ⊢
    rw [encode_cons, decodeFrom_encodeChar, ih]

end Decoder

end CloudVM.Utf8
