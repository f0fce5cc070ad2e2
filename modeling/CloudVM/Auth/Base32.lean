import CloudVM.Common
import CloudVM.Framework.Bits
import CloudVM.Framework.Text
import Mathlib.Data.List.DropRight
import Mathlib.Data.List.GetD
import Mathlib.Tactic.IntervalCases

/-!
# Base32

The codec of the TOTP secrets. Encoder and decoder shift every byte or letter into one 32-bit
number that is never cleared; only its low `bits` bits are still to be written.
-/

namespace CloudVM.Totp

open Text Bits

section Codec

/-- `BASE32_ALPHABET`. -/
def base32Alphabet : List Char := "ABCDEFGHIJKLMNOPQRSTUVWXYZ234567".toList

/-- `BASE32_ALPHABET[index & 31]`. -/
def letterAt (index : BitVec 32) : Char := base32Alphabet.getD (index &&& 31).toNat '\x00'

structure Encoder where
  bits : ℕ := 0
  value : BitVec 32 := 0
  output : List Char := []
deriving DecidableEq

/-- `while (bits >= 5)`. -/
def emitLetters (value : BitVec 32) : ℕ → List Char → Encoder
  | bits + 5, output => emitLetters value bits (output ++ [letterAt (ushr value bits)])
  | bits, output => { bits, value, output }

def encodeByte (s : Encoder) (byte : UInt8) : Encoder :=
  emitLetters (shl s.value 8 ||| byte.toBitVec.setWidth 32) (s.bits + 8) s.output

def lastLetter (s : Encoder) : List Char :=
  if 0 < s.bits then s.output ++ [letterAt (shl s.value (5 - s.bits))] else s.output

/-- `while (output.length % 8 !== 0)`. -/
def padLetters (output : List Char) : List Char :=
  output ++ List.replicate ((8 - output.length % 8) % 8) '='

def base32Encode (buffer : List UInt8) : List Char :=
  padLetters (lastLetter (buffer.foldl encodeByte {}))

/-- `toUpperCase` maps the characters one by one. What it makes of ASCII and of white space is
given; other characters may become any. -/
structure UpperCase where
  mapping : Char → List Char
  ascii : ∀ c, c.toNat < 128 → mapping c = [c.toUpper]
  space : ∀ c, jsSpace c = true → mapping c = [c]

def UpperCase.plain : UpperCase where
  mapping := fun c => [c.toUpper]
  ascii := fun _ _ => rfl
  space := by
    intro c h
    delta Char.toUpper
    rw [dif_neg]
    rintro ⟨hlow, hhigh⟩
    have hlow' : 97 ≤ c.toNat := hlow
    have hhigh' : c.toNat ≤ 122 := hhigh
    simp only [jsSpace, Bool.or_eq_true, Bool.and_eq_true, decide_eq_true_eq, beq_iff_eq] at h
    omega

/-- `input.toUpperCase().replace(/=+$/g, "").replace(/\s+/g, "")`. -/
def normalizeBase32 (upper : UpperCase) (input : List Char) : List Char :=
  ((input.flatMap upper.mapping).rdropWhile fun c => c == '=').filter fun c => !jsSpace c

structure Decoder where
  bits : ℕ := 0
  value : BitVec 32 := 0
  bytes : List UInt8 := []
deriving DecidableEq

/-- `value & 0xff` as an entry of the array. -/
def byteAt (value : BitVec 32) : UInt8 := .ofBitVec ((value &&& 0xff).setWidth 8)

def decodeChar (s : Decoder) (char : Char) : Except Failure Decoder :=
  match base32Alphabet.idxOf? char with
  | none => .error ⟨.other, "Invalid base32 character"⟩
  | some index =>
    let value := shl s.value 5 ||| BitVec.ofNat 32 index
    let bits := s.bits + 5
    if 8 ≤ bits then .ok ⟨bits - 8, value, s.bytes ++ [byteAt (ushr value (bits - 8))]⟩
    else .ok ⟨bits, value, s.bytes⟩

def base32Decode (upper : UpperCase) (input : List Char) : Except Failure (List UInt8) := do
  let s ← (normalizeBase32 upper input).foldlM decodeChar {}
  pure s.bytes

end Codec

section Standard

def byteBits (b : UInt8) : List Bool := low b.toBitVec 8

/-- A bit string in groups of five, the last filled up with zeros. -/
def quintets : List Bool → List (List Bool)
  | a :: b :: c :: d :: e :: bits => [a, b, c, d, e] :: quintets bits
  | [] => []
  | bits => [bits ++ List.replicate (5 - bits.length) false]

/-- The `=` after a final quantum of so many bytes. -/
def rfcPadding : ℕ → ℕ
  | 1 => 6
  | 2 => 4
  | 3 => 3
  | 4 => 1
  | _ => 0

def rfcQuantum (bytes : List UInt8) : List Char :=
  (quintets (bytes.flatMap byteBits)).map (fun q => base32Alphabet.getD (number q) '\x00') ++
    List.replicate (rfcPadding bytes.length) '='

/-- RFC 4648, section 6: quanta of 40 bits, and a final one that may be shorter. -/
def rfcBase32 : List UInt8 → List Char
  | a :: b :: c :: d :: e :: bytes => rfcQuantum [a, b, c, d, e] ++ rfcBase32 bytes
  | [] => []
  | bytes => rfcQuantum bytes

end Standard

section Letters

def letter (i : BitVec 5) : Char := base32Alphabet.getD i.toNat '\x00'

def letterBits (i : BitVec 5) : List Bool := low i 5

private theorem byteBits_injective : Function.Injective byteBits := by
  intro a b h
  have hn := congrArg number h
  simp only [byteBits, number_low, BitVec.toNat_mod_cancel] at hn
  exact UInt8.toNat_inj.mp hn

private theorem letterBits_injective : Function.Injective letterBits := by
  intro i j h
  have hn := congrArg number h
  simp only [letterBits, number_low, BitVec.toNat_mod_cancel] at hn
  exact BitVec.toNat_inj.mp hn

private theorem length_byteBits (b : UInt8) : (byteBits b).length = 8 := length_low _ _

private theorem length_letterBits (i : BitVec 5) : (letterBits i).length = 5 := length_low _ _

private theorem letterAt_eq (v : BitVec 32) : letterAt v = letter (v.setWidth 5) := by
  have hindex : (v &&& 31).toNat = (v.setWidth 5).toNat := by
    rw [BitVec.toNat_and, BitVec.toNat_setWidth]
    exact Nat.and_two_pow_sub_one_eq_mod _ 5
  rw [letterAt, letter, hindex]

private theorem letterBits_setWidth (v : BitVec 32) : letterBits (v.setWidth 5) = low v 5 := by
  apply low_congr
  intro i hi
  simp [hi]

private theorem idxOf_letter : ∀ i : BitVec 5, base32Alphabet.idxOf? (letter i) = some i.toNat := by
  have hall : ∀ n : Fin 32, base32Alphabet.idxOf? (base32Alphabet.getD n.val '\x00') = some n.val := by
    decide
  intro i
  exact hall ⟨i.toNat, i.isLt⟩

end Letters

section Encoding

/-- The letters written so far and the bits that are left spell the bytes read so far. -/
structure Encoder.Spells (s : Encoder) (bytes : List UInt8) (letters : List (BitVec 5)) : Prop where
  few : s.bits < 5
  output : s.output = letters.map letter
  stream : letters.flatMap letterBits ++ low s.value s.bits = bytes.flatMap byteBits

private theorem emitLetters_spells (value : BitVec 32) (bits : ℕ) (letters : List (BitVec 5))
    (bytes : List UInt8) (hbits : bits < 32)
    (h : letters.flatMap letterBits ++ low value bits = bytes.flatMap byteBits) :
    ∃ letters', (emitLetters value bits (letters.map letter)).Spells bytes letters' ∧
      (emitLetters value bits (letters.map letter)).value = value := by
  induction bits using Nat.strong_induction_on generalizing letters with
  | _ bits ih =>
    match bits with
    | bits + 5 =>
      have hletter : letters.map letter ++ [letterAt (ushr value bits)] =
          (letters ++ [(value >>> bits).setWidth 5]).map letter := by
        rw [ushr_eq _ (by omega), letterAt_eq, List.map_append, List.map_singleton]
      rw [emitLetters, hletter]
      apply ih bits (by omega) _ (by omega)
      rw [← h, Nat.add_comm bits 5, low_add]
      simp [letterBits_setWidth]
    | 0 | 1 | 2 | 3 | 4 => exact ⟨letters, ⟨by simp [emitLetters], rfl, h⟩, rfl⟩

private theorem encodeByte_spells {s : Encoder} {bytes : List UInt8} {letters : List (BitVec 5)}
    (h : s.Spells bytes letters) (byte : UInt8) :
    ∃ letters', (encodeByte s byte).Spells (bytes ++ [byte]) letters' := by
  have hstream : letters.flatMap letterBits ++
      low (shl s.value 8 ||| byte.toBitVec.setWidth 32) (s.bits + 8) =
      (bytes ++ [byte]).flatMap byteBits := by
    have hfew := h.few
    have hhigh : ∀ i, 8 ≤ i → (byte.toBitVec.setWidth 32).getLsbD i = false := by
      intro i hi
      rw [BitVec.getLsbD_setWidth, BitVec.getLsbD_of_ge _ _ hi, Bool.and_false]
    have hbyte : low (byte.toBitVec.setWidth 32) 8 = byteBits byte := by
      apply low_congr
      intro i hi
      have hi' : i < 32 := by omega
      simp [hi']
    rw [shl_eq _ (by omega), low_shiftLeft_or _ _ _ _ (by omega) hhigh, hbyte, ← List.append_assoc,
      h.stream]
    simp
  obtain ⟨letters', hspells, -⟩ :=
    emitLetters_spells _ (s.bits + 8) letters _ (by have := h.few; omega) hstream
  rw [encodeByte, h.output]
  exact ⟨letters', hspells⟩

private theorem foldl_spells {s : Encoder} {bytes : List UInt8} {letters : List (BitVec 5)}
    (h : s.Spells bytes letters) (rest : List UInt8) :
    ∃ letters', (rest.foldl encodeByte s).Spells (bytes ++ rest) letters' := by
  induction rest generalizing s bytes letters with
  | nil => exact ⟨letters, by simpa using h⟩
  | cons byte rest ih =>
    obtain ⟨letters', h'⟩ := encodeByte_spells h byte
    simpa using ih h'

/-- A text of letters and padding that carries the bytes, with the shortest tail of zeros. -/
structure Carries (letters : List (BitVec 5)) (pad : ℕ) (bytes : List UInt8) : Prop where
  stream : ∃ zeros < 5, letters.flatMap letterBits =
    bytes.flatMap byteBits ++ List.replicate zeros false
  whole : (letters.length + pad) % 8 = 0
  short : pad < 8

def paddedText (letters : List (BitVec 5)) (pad : ℕ) : List Char :=
  letters.map letter ++ List.replicate pad '='

private theorem Carries.unique {letters letters' : List (BitVec 5)} {pad pad' : ℕ}
    {bytes : List UInt8} (h : Carries letters pad bytes) (h' : Carries letters' pad' bytes) :
    paddedText letters pad = paddedText letters' pad' := by
  obtain ⟨zeros, hzeros, hstream⟩ := h.stream
  obtain ⟨zeros', hzeros', hstream'⟩ := h'.stream
  have hlen := congrArg List.length hstream
  have hlen' := congrArg List.length hstream'
  simp only [List.length_append, List.length_replicate, length_flatMap_words length_letterBits,
    length_flatMap_words length_byteBits] at hlen hlen'
  have hsame : zeros = zeros' := by omega
  have hbits : letters.flatMap letterBits ++ [] = letters'.flatMap letterBits ++ [] := by
    rw [hstream, hstream', hsame]
  obtain ⟨rfl, -⟩ := flatMap_append_inj letterBits_injective length_letterBits _ _ (by simp)
    (by simp) hbits
  have hpad : pad = pad' := by
    have hw := h.whole
    have hw' := h'.whole
    have hs := h.short
    have hs' := h'.short
    omega
  rw [hpad]

private theorem lastLetter_stream {s : Encoder} {bytes : List UInt8} {letters : List (BitVec 5)}
    (h : s.Spells bytes letters) :
    ∃ letters' : List (BitVec 5), lastLetter s = letters'.map letter ∧
      ∃ zeros < 5, letters'.flatMap letterBits =
        bytes.flatMap byteBits ++ List.replicate zeros false := by
  by_cases hbits : 0 < s.bits
  · have hfew := h.few
    refine ⟨letters ++ [(s.value <<< (5 - s.bits)).setWidth 5], ?_, 5 - s.bits, by omega, ?_⟩
    · rw [lastLetter, if_pos hbits, shl_eq _ (by omega), letterAt_eq, h.output]
      simp
    · have hsplit : low (s.value <<< (5 - s.bits)) 5 =
          low s.value s.bits ++ List.replicate (5 - s.bits) false := by
        have hor := low_shiftLeft_or s.value 0#32 s.bits (5 - s.bits) (by omega) (by simp)
        rw [BitVec.or_zero, Nat.add_sub_of_le (by omega), low_zero] at hor
        exact hor
      rw [← h.stream, List.flatMap_append, List.flatMap_singleton, letterBits_setWidth, hsplit,
        List.append_assoc]
  · refine ⟨letters, by rw [lastLetter, if_neg hbits, h.output], 0, by omega, ?_⟩
    have hzero : s.bits = 0 := by omega
    rw [← h.stream, hzero]
    simp [low]

private theorem base32Encode_carries (bytes : List UInt8) :
    ∃ letters pad, Carries letters pad bytes ∧ base32Encode bytes = paddedText letters pad := by
  have hempty : ({} : Encoder).Spells [] [] := ⟨by decide, rfl, rfl⟩
  obtain ⟨letters, hspells⟩ := foldl_spells hempty bytes
  obtain ⟨letters', hlast, hstream⟩ := lastLetter_stream hspells
  refine ⟨letters', (8 - letters'.length % 8) % 8, ⟨hstream, by omega, by omega⟩, ?_⟩
  rw [base32Encode, padLetters, hlast, List.length_map]
  rfl

private theorem quintets_letters (bits : List Bool) :
    ∃ letters : List (BitVec 5), ∃ zeros < 5,
      (quintets bits).map (fun q => base32Alphabet.getD (number q) '\x00') = letters.map letter ∧
      letters.flatMap letterBits = bits ++ List.replicate zeros false := by
  have hgroup : ∀ a b c d e : Bool,
      letterBits (BitVec.ofNat 5 (number [a, b, c, d, e])) = [a, b, c, d, e] := by decide
  have hletter : ∀ a b c d e : Bool, base32Alphabet.getD (number [a, b, c, d, e]) '\x00' =
      letter (BitVec.ofNat 5 (number [a, b, c, d, e])) := by decide
  induction bits using quintets.induct with
  | case1 a b c d e bits ih =>
    obtain ⟨letters, zeros, hzeros, hmap, hbits⟩ := ih
    refine ⟨BitVec.ofNat 5 (number [a, b, c, d, e]) :: letters, zeros, hzeros, ?_, ?_⟩
    · rw [quintets, List.map_cons, List.map_cons, hmap, hletter]
    · rw [List.flatMap_cons, hbits, hgroup]
      rfl
  | case2 => exact ⟨[], 0, by omega, rfl, rfl⟩
  | case3 bits hlong hempty =>
    match bits with
    | [a] => exact ⟨[_], 4, by omega, congrArg (fun x => [x]) (hletter a _ _ _ _),
        (List.append_nil _).trans (hgroup a _ _ _ _)⟩
    | [a, b] => exact ⟨[_], 3, by omega, congrArg (fun x => [x]) (hletter a b _ _ _),
        (List.append_nil _).trans (hgroup a b _ _ _)⟩
    | [a, b, c] => exact ⟨[_], 2, by omega, congrArg (fun x => [x]) (hletter a b c _ _),
        (List.append_nil _).trans (hgroup a b c _ _)⟩
    | [a, b, c, d] => exact ⟨[_], 1, by omega, congrArg (fun x => [x]) (hletter a b c d _),
        (List.append_nil _).trans (hgroup a b c d _)⟩
    | a :: b :: c :: d :: e :: bits => exact (hlong a b c d e bits rfl).elim

private theorem rfcQuantum_carries (bytes : List UInt8) (hbytes : bytes.length ≤ 5) :
    ∃ letters, rfcQuantum bytes = paddedText letters (rfcPadding bytes.length) ∧
      Carries letters (rfcPadding bytes.length) bytes := by
  obtain ⟨letters, zeros, hzeros, hmap, hbits⟩ := quintets_letters (bytes.flatMap byteBits)
  have hlen := congrArg List.length hbits
  simp only [List.length_append, List.length_replicate, length_flatMap_words length_letterBits,
    length_flatMap_words length_byteBits] at hlen
  refine ⟨letters, by rw [rfcQuantum, hmap, paddedText], ⟨zeros, hzeros, hbits⟩, ?_, ?_⟩
  · have hcases : ∀ n ≤ 5, ∀ m, 5 * m = 8 * n + zeros → (m + rfcPadding n) % 8 = 0 := by
      intro n hn m hm
      interval_cases n <;> simp only [rfcPadding] <;> omega
    exact hcases _ hbytes _ hlen
  · unfold rfcPadding
    split <;> omega

private theorem rfcBase32_carries (bytes : List UInt8) :
    ∃ letters pad, Carries letters pad bytes ∧ rfcBase32 bytes = paddedText letters pad := by
  induction bytes using rfcBase32.induct with
  | case1 a b c d e bytes ih =>
    obtain ⟨letters, pad, hcarries, htext⟩ := ih
    obtain ⟨first, hfirst, hquantum⟩ := rfcQuantum_carries [a, b, c, d, e] (by simp)
    obtain ⟨none, hnone, hbits⟩ := hquantum.stream
    obtain ⟨zeros, hzeros, hstream⟩ := hcarries.stream
    -- Forty bits are eight letters, so nothing was filled up.
    have hexact : none = 0 ∧ first.length = 8 := by
      have hlen := congrArg List.length hbits
      simp only [List.length_append, List.length_replicate, length_flatMap_words length_letterBits,
        length_flatMap_words length_byteBits, List.length_cons, List.length_nil] at hlen
      omega
    obtain ⟨rfl, height⟩ := hexact
    refine ⟨first ++ letters, pad, ⟨⟨zeros, hzeros, ?_⟩, ?_, hcarries.short⟩, ?_⟩
    · rw [List.flatMap_append, hbits, hstream]
      simp
    · have hwhole := hcarries.whole
      rw [List.length_append]
      omega
    · rw [rfcBase32, hfirst, htext]
      simp [paddedText, rfcPadding]
  | case2 => exact ⟨[], 0, ⟨⟨0, by omega, rfl⟩, rfl, by omega⟩, rfl⟩
  | case3 bytes hlong hempty =>
    have hshort : bytes.length ≤ 5 := by
      match bytes with
      | [] | [_] | [_, _] | [_, _, _] | [_, _, _, _] => simp
      | a :: b :: c :: d :: e :: bytes => exact (hlong a b c d e bytes rfl).elim
    obtain ⟨letters, htext, hcarries⟩ := rfcQuantum_carries bytes hshort
    refine ⟨letters, _, hcarries, ?_⟩
    rw [← htext]
    match bytes with
    | [_] | [_, _] | [_, _, _] | [_, _, _, _] => rfl
    | a :: b :: c :: d :: e :: bytes => exact (hlong a b c d e bytes rfl).elim

end Encoding

section Decoding

/-- The bytes written so far and the bits that are left spell the letters read so far. -/
structure Decoder.Spells (s : Decoder) (letters : List (BitVec 5)) : Prop where
  few : s.bits < 8
  stream : s.bytes.flatMap byteBits ++ low s.value s.bits = letters.flatMap letterBits

private theorem byteBits_byteAt (v : BitVec 32) : byteBits (byteAt v) = low v 8 := by
  apply low_congr
  intro i hi
  have hmask : (0xff : BitVec 32).getLsbD i = true := by
    interval_cases i <;> rfl
  simp only [byteAt, BitVec.getLsbD_setWidth, BitVec.getLsbD_and, hmask, hi, decide_true,
    Bool.and_true, Bool.true_and]

private theorem decodeChar_spells {s : Decoder} {letters : List (BitVec 5)} (h : s.Spells letters)
    (i : BitVec 5) :
    ∃ s', decodeChar s (letter i) = .ok s' ∧ s'.Spells (letters ++ [i]) := by
  have hfew := h.few
  have hstream : s.bytes.flatMap byteBits ++
      low (shl s.value 5 ||| BitVec.ofNat 32 i.toNat) (s.bits + 5) =
      (letters ++ [i]).flatMap letterBits := by
    have hhigh : ∀ j, 5 ≤ j → (BitVec.ofNat 32 i.toNat).getLsbD j = false := by
      intro j hj
      rw [BitVec.getLsbD_ofNat, Nat.testBit_lt_two_pow, Bool.and_false]
      exact i.isLt.trans_le (Nat.pow_le_pow_right (by omega) hj)
    have hletter : low (BitVec.ofNat 32 i.toNat) 5 = letterBits i := by
      apply low_congr
      intro j hj
      have hj' : j < 32 := by omega
      rw [BitVec.getLsbD_ofNat, BitVec.getLsbD]
      simp [hj']
    rw [shl_eq _ (by omega), low_shiftLeft_or _ _ _ _ (by omega) hhigh, hletter, ← List.append_assoc,
      h.stream]
    simp
  simp only [decodeChar, idxOf_letter]
  by_cases hbyte : 8 ≤ s.bits + 5
  · refine ⟨_, if_pos hbyte, ⟨by simp only; omega, ?_⟩⟩
    have hsplit : s.bits + 5 = 8 + (s.bits + 5 - 8) := by omega
    rw [← hstream, ushr_eq _ (by omega), hsplit, low_add]
    simp [byteBits_byteAt]
  · exact ⟨_, if_neg hbyte, ⟨by simp only; omega, hstream⟩⟩

private theorem foldlM_spells {s : Decoder} {letters : List (BitVec 5)} (h : s.Spells letters)
    (rest : List (BitVec 5)) :
    ∃ s', (rest.map letter).foldlM decodeChar s = .ok s' ∧ s'.Spells (letters ++ rest) := by
  induction rest generalizing s letters with
  | nil => exact ⟨s, rfl, by simpa using h⟩
  | cons i rest ih =>
    obtain ⟨s', hs', hspells⟩ := decodeChar_spells h i
    obtain ⟨s'', hs'', hspells'⟩ := ih hspells
    refine ⟨s'', ?_, by simpa using hspells'⟩
    rw [List.map_cons, List.foldlM_cons, hs']
    exact hs''

private theorem Carries.decode {letters : List (BitVec 5)} {pad : ℕ} {bytes : List UInt8}
    (h : Carries letters pad bytes) :
    ∃ s, (letters.map letter).foldlM decodeChar {} = .ok s ∧ s.bytes = bytes := by
  have hempty : ({} : Decoder).Spells [] := ⟨by decide, rfl⟩
  obtain ⟨s, hs, hspells⟩ := foldlM_spells hempty letters
  obtain ⟨zeros, hzeros, hstream⟩ := h.stream
  have hall := hspells.stream
  rw [List.nil_append, hstream] at hall
  have hleft : (low s.value s.bits).length < 8 := by
    rw [length_low]
    exact hspells.few
  have hright : (List.replicate zeros false).length < 8 := by
    rw [List.length_replicate]
    omega
  exact ⟨s, hs, (flatMap_append_inj byteBits_injective length_byteBits _ _ hleft hright hall).1⟩

/-- The same letters with some of them in lower case and white space between them. -/
inductive Respelled : List Char → List Char → Prop
  | nil : Respelled [] []
  | keep {text text' : List Char} (c : Char) : Respelled text text' →
      Respelled (c :: text) (c :: text')
  | lower {text text' : List Char} (c : Char) : Respelled text text' →
      Respelled (c :: text) (c.toLower :: text')
  | space {text text' : List Char} (c : Char) (h : jsSpace c = true) : Respelled text text' →
      Respelled text (c :: text')

private theorem letter_plain (i : BitVec 5) :
    (letter i).toNat < 128 ∧ (letter i).toUpper = letter i ∧ (letter i).toLower.toNat < 128 ∧
      (letter i).toLower.toUpper = letter i ∧ jsSpace (letter i) = false ∧ letter i ≠ '=' := by
  have hall : base32Alphabet.all (fun c => c.toNat < 128 ∧ c.toUpper = c ∧ c.toLower.toNat < 128 ∧
      c.toLower.toUpper = c ∧ jsSpace c = false ∧ c ≠ '=') = true := by
    decide
  have hmem : letter i ∈ base32Alphabet := by
    rw [letter, List.getD_eq_getElem _ _ (i.isLt : i.toNat < base32Alphabet.length)]
    exact List.getElem_mem _
  exact of_decide_eq_true (List.all_eq_true.mp hall _ hmem)

variable (upper : UpperCase)

private theorem Respelled.capitals {letters : List (BitVec 5)} {text : List Char}
    (h : Respelled (letters.map letter) text) :
    (text.flatMap upper.mapping).filter (fun c => !jsSpace c) = letters.map letter ∧
      ∀ c ∈ text.flatMap upper.mapping, c ≠ '=' := by
  generalize htext : letters.map letter = spelled at h
  induction h generalizing letters with
  | nil => exact ⟨rfl, by simp⟩
  | keep c _ ih =>
    match letters with
    | i :: letters =>
      obtain ⟨rfl, hrest⟩ := List.cons.inj htext
      obtain ⟨hfilter, hpad⟩ := ih hrest
      obtain ⟨hascii, hupper, -, -, hspace, hne⟩ := letter_plain i
      rw [List.flatMap_cons, upper.ascii _ hascii, hupper]
      refine ⟨by simpa [hspace] using hfilter, ?_⟩
      intro d hd
      rcases List.mem_cons.mp hd with rfl | hd
      · exact hne
      · exact hpad d hd
  | lower c _ ih =>
    match letters with
    | i :: letters =>
      obtain ⟨rfl, hrest⟩ := List.cons.inj htext
      obtain ⟨hfilter, hpad⟩ := ih hrest
      obtain ⟨-, -, hascii, hupper, hspace, hne⟩ := letter_plain i
      rw [List.flatMap_cons, upper.ascii _ hascii, hupper]
      refine ⟨by simpa [hspace] using hfilter, ?_⟩
      intro d hd
      rcases List.mem_cons.mp hd with rfl | hd
      · exact hne
      · exact hpad d hd
  | space c hspace _ ih =>
    obtain ⟨hfilter, hpad⟩ := ih htext
    rw [List.flatMap_cons, upper.space c hspace]
    refine ⟨by simpa [hspace] using hfilter, ?_⟩
    intro d hd
    rcases List.mem_cons.mp hd with rfl | hd
    · rintro rfl
      exact absurd hspace (by decide)
    · exact hpad d hd

private theorem normalizeBase32_respelled {letters : List (BitVec 5)} {text : List Char}
    (h : Respelled (letters.map letter) text) {tail : List Char} (htail : ∀ c ∈ tail, c = '=') :
    normalizeBase32 upper (text ++ tail) = letters.map letter := by
  obtain ⟨hfilter, hpad⟩ := h.capitals upper
  have hsame : tail.flatMap upper.mapping = tail := by
    induction tail with
    | nil => rfl
    | cons c tail ih =>
      obtain rfl := htail c (by simp)
      rw [List.flatMap_cons, upper.ascii _ (by decide), ih fun c hc => htail c (by simp [hc])]
      rfl
  have hdrop : ((text.flatMap upper.mapping) ++ tail).rdropWhile (fun c => c == '=') =
      text.flatMap upper.mapping := by
    rw [List.rdropWhile, List.reverse_append, List.dropWhile_append_of_pos]
    · change (text.flatMap upper.mapping).rdropWhile (fun c => c == '=') = _
      rw [List.rdropWhile_eq_self_iff]
      intro hne
      simpa using hpad _ (List.getLast_mem hne)
    · intro c hc
      simpa using htail c (List.mem_reverse.mp hc)
  rw [normalizeBase32, List.flatMap_append, hsame, hdrop, hfilter]

def unpadded (bytes : List UInt8) : List Char := (base32Encode bytes).takeWhile fun c => c != '='

private theorem takeWhile_paddedText (letters : List (BitVec 5)) (pad : ℕ) :
    (paddedText letters pad).takeWhile (fun c => c != '=') = letters.map letter := by
  rw [paddedText, List.takeWhile_append_of_pos]
  · cases pad <;> simp [List.replicate_succ]
  · intro c hc
    obtain ⟨i, -, rfl⟩ := List.mem_map.mp hc
    simpa using (letter_plain i).2.2.2.2.2

/-- The encoder writes the standard's text, and the decoder reads the bytes back from it, also with
small letters, with white space before the padding, and with any padding or none. -/
theorem base32_rfc4648 (bytes : List UInt8) :
    base32Encode bytes = rfcBase32 bytes ∧
      base32Decode upper (base32Encode bytes) = .ok bytes ∧
      ∀ text tail, Respelled (unpadded bytes) text → (∀ c ∈ tail, c = '=') →
        base32Decode upper (text ++ tail) = .ok bytes := by
  obtain ⟨letters, pad, hcarries, htext⟩ := base32Encode_carries bytes
  obtain ⟨letters', pad', hcarries', htext'⟩ := rfcBase32_carries bytes
  obtain ⟨s, hs, hbytes⟩ := hcarries.decode
  have hread : ∀ text tail, Respelled (unpadded bytes) text → (∀ c ∈ tail, c = '=') →
      base32Decode upper (text ++ tail) = .ok bytes := by
    intro text tail hspelled htail
    rw [unpadded, htext, takeWhile_paddedText] at hspelled
    rw [base32Decode, normalizeBase32_respelled upper hspelled htail, hs, ← hbytes]
    rfl
  have hkept : ∀ text, Respelled text text := by
    intro text
    induction text with
    | nil => exact .nil
    | cons c text ih => exact .keep c ih
  refine ⟨by rw [htext, htext', hcarries.unique hcarries'], ?_, hread⟩
  rw [htext, paddedText]
  apply hread
  · rw [unpadded, htext, takeWhile_paddedText]
    exact hkept _
  · intro c hc
    exact List.eq_of_mem_replicate hc

example : base32Decode .plain "mz xw6".toList = .ok [102, 111, 111] := by decide

end Decoding

end CloudVM.Totp
