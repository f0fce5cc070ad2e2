import CloudVM.Common
import CloudVM.Framework.Base64
import CloudVM.Framework.Numbers
import CloudVM.Framework.Text
import CloudVM.Framework.Utf8

/-!
# Generated keys

`buildSshRsaPublicKeyFromJwk` takes the two numbers of an RSA key from base64url and writes them
as `mpint`s into one blob. What the blob has to be is said apart from the code.
-/

namespace CloudVM.SshKeyService

open Numbers Text

section Build

/-- `value.replace(/a/g, b)` for a single character. -/
def replaceAll (a b : Char) (value : List Char) : List Char := value.map fun c => if c = a then b else c

def base64UrlToBuffer (value : String) : List UInt8 :=
  let normalized := replaceAll '_' '/' (replaceAll '-' '+' value.toList)
  let pad := stringLength (String.ofList normalized) % 4
  let padded := normalized ++ if pad ≠ 0 then List.replicate (4 - pad) '=' else []
  Base64.decode padded

/-- `len.writeUInt32BE(value, 0)` raises a `RangeError` for a value that does not fit. -/
def writeUInt32BE (value : ℕ) : Except Failure (List UInt8) :=
  if value < 2 ^ 32 then .ok (word32 value) else .error ⟨.other, "ERR_OUT_OF_RANGE"⟩

def encodeSshField (data : List UInt8) : Except Failure (List UInt8) := do
  let len ← writeUInt32BE data.length
  return len ++ data

/-- `while (value.length > 1 && value[0] === 0x00)`. -/
def stripZeros : List UInt8 → List UInt8
  | first :: second :: rest =>
    if first = 0 then stripZeros (second :: rest) else first :: second :: rest
  | value => value

def encodeMpint (data : List UInt8) : Except Failure (List UInt8) :=
  let value := stripZeros data
  let value := if value.length = 0 then [0] else value
  let value := if value.headD 0 &&& 0x80 ≠ 0 then 0 :: value else value
  encodeSshField value

/-- `Buffer.from("ssh-rsa", "utf8")`. -/
def keyType : List UInt8 := Utf8.encode "ssh-rsa".toList

def buildSshRsaPublicKeyFromJwk (n e : String) : Except Failure String := do
  let exponent := base64UrlToBuffer e
  let modulus := base64UrlToBuffer n
  let payload :=
    (← encodeSshField keyType) ++ (← encodeMpint exponent) ++ (← encodeMpint modulus)
  return "ssh-rsa " ++ String.ofList (Base64.encode payload)

end Build

section Format

/-- An `mpint` of RFC 4251. -/
def IsMpint (z : ℤ) (bytes : List UInt8) : Prop := Minimal bytes ∧ signed bytes = z

/-- The blob of an `ssh-rsa` key in RFC 4253: three fields, whose lengths take four bytes each. -/
def IsRsaBlob (e n : ℤ) (blob : List UInt8) : Prop :=
  ∃ exponent modulus, IsMpint e exponent ∧ IsMpint n modulus ∧
    exponent.length < 2 ^ 32 ∧ modulus.length < 2 ^ 32 ∧
    blob = field keyType ++ field exponent ++ field modulus

def readRsaBlob (blob : List UInt8) : Option (ℤ × ℤ) := do
  let (name, rest) ← readField blob
  let (exponent, rest) ← readField rest
  let (modulus, rest) ← readField rest
  if name = keyType ∧ Minimal exponent ∧ Minimal modulus ∧ rest = [] then
    some (signed exponent, signed modulus)
  else none

end Format

section Numbers

variable {data : List UInt8}

private theorem replaceAll_letter {k : ℕ} (h : k < 64) :
    replaceAll '_' '/' (replaceAll '-' '+' [Base64.letter Base64.url k]) =
      [Base64.letter Base64.standard k] := by
  have hall : ∀ m : Fin 64, replaceAll '_' '/' (replaceAll '-' '+' [Base64.letter Base64.url m]) =
      [Base64.letter Base64.standard m] := by decide +kernel
  exact hall ⟨k, h⟩

private theorem replaceAll_encodeUrl (data : List UInt8) :
    replaceAll '_' '/' (replaceAll '-' '+' (Base64.encodeUrl data)) =
      (Base64.groups data).map (Base64.letter Base64.standard) := by
  simp only [replaceAll, Base64.encodeUrl, List.map_map]
  apply List.map_congr_left
  intro k hk
  have hletter := replaceAll_letter (Base64.groups_lt data k hk)
  simp only [replaceAll, List.map_cons, List.map_nil, List.cons.injEq, and_true] at hletter
  exact hletter

theorem base64UrlToBuffer_encodeUrl (data : List UInt8) :
    base64UrlToBuffer (String.ofList (Base64.encodeUrl data)) = data := by
  simp only [base64UrlToBuffer, String.toList_ofList, replaceAll_encodeUrl]
  apply Base64.decode_spelled fun _ hk => Base64.number_standard hk
  intro c hc
  split at hc
  · exact Base64.number_pad c hc
  · cases hc

theorem encodeSshField_eq_ok {out : List UInt8} :
    encodeSshField data = .ok out ↔ data.length < 2 ^ 32 ∧ out = field data := by
  by_cases h : data.length < 2 ^ 32
  · simp only [encodeSshField, writeUInt32BE, field, h, true_and]
    exact ⟨fun hout => (Except.ok.inj hout).symm, fun hout => congrArg Except.ok hout.symm⟩
  · simp only [encodeSshField, writeUInt32BE, h, false_and, iff_false]
    intro hout
    cases hout

theorem stripZeros_spec (data : List UInt8) :
    value (stripZeros data) = value data ∧ (stripZeros data).length ≤ data.length ∧
      ∀ first rest, stripZeros data = first :: rest → first = 0 → rest = [] := by
  fun_induction stripZeros data with
  | case1 second rest ih =>
    obtain ⟨hvalue, hlen, hfirst⟩ := ih
    refine ⟨?_, hlen.trans (Nat.le_succ _), hfirst⟩
    rw [hvalue, value_cons 0]
    simp
  | case2 first second rest hne =>
    refine ⟨rfl, le_rfl, ?_⟩
    intro b bytes heq hzero
    exact absurd ((List.cons.inj heq).1.trans hzero) hne
  | case3 value hshort =>
    refine ⟨rfl, le_rfl, ?_⟩
    rintro first rest rfl -
    cases rest with
    | nil => rfl
    | cons second rest => exact absurd rfl (hshort first second rest)

private theorem topBit (b : UInt8) : b &&& 0x80 ≠ 0 ↔ 128 ≤ b.toNat := by
  have hall : ∀ k : Fin 256, k.val &&& 128 ≠ 0 ↔ 128 ≤ k.val := by decide +kernel
  rw [Ne, ← UInt8.toNat_inj, UInt8.toNat_and]
  exact hall ⟨b.toNat, b.toNat_lt⟩

theorem encodeMpint_spec (h : 0 < value data) :
    ∃ bytes, IsMpint (value data) bytes ∧ bytes.length ≤ data.length + 1 ∧
      encodeMpint data = encodeSshField bytes := by
  obtain ⟨hvalue, hlen, hfirst⟩ := stripZeros_spec data
  simp only [encodeMpint]
  rw [← hvalue] at h ⊢
  generalize stripZeros data = stripped at *
  cases stripped with
  | nil => cases h
  | cons first rest =>
    have hne : first ≠ 0 := by
      intro hzero
      rw [hfirst first rest rfl hzero, hzero] at h
      cases h
    obtain ⟨hlow, hhigh⟩ := @minimal_of_head first rest hne
    simp only [List.length_cons, Nat.succ_ne_zero, if_false, List.headD_cons]
    by_cases hsign : first &&& 0x80 ≠ 0
    · rw [if_pos hsign]
      exact ⟨_, hhigh ((topBit first).mp hsign), by simpa using hlen, rfl⟩
    · rw [if_neg hsign]
      rw [topBit, not_le] at hsign
      exact ⟨_, hlow hsign, hlen.trans (Nat.le_succ _), rfl⟩

end Numbers

section Blob

variable {e n : ℤ} {blob : List UInt8}

theorem IsMpint.unique {z : ℤ} {xs ys : List UInt8} (hx : IsMpint z xs) (hy : IsMpint z ys) :
    xs = ys := hx.1.ext hy.1 (hx.2.trans hy.2.symm)

theorem IsRsaBlob.read (h : IsRsaBlob e n blob) : readRsaBlob blob = some (e, n) := by
  obtain ⟨exponent, modulus, ⟨hemin, he⟩, ⟨hnmin, hn⟩, helen, hnlen, rfl⟩ := h
  have hname : keyType.length < 2 ^ 32 := by decide
  have hlast := readField_field hnlen []
  rw [List.append_nil] at hlast
  simp only [readRsaBlob, List.append_assoc, readField_field hname, readField_field helen, hlast,
    Option.bind_eq_bind, Option.bind_some]
  rw [if_pos ⟨trivial, hemin, hnmin, trivial⟩, he, hn]

section Built

variable {modulus exponent : List UInt8}

/-- The reader takes nothing but a blob of the two numbers. -/
theorem isRsaBlob_iff_read : IsRsaBlob e n blob ↔ readRsaBlob blob = some (e, n) := by
  refine ⟨IsRsaBlob.read, ?_⟩
  intro hread
  obtain ⟨⟨name, rest⟩, hname, hread⟩ := Option.bind_eq_some_iff.mp hread
  obtain ⟨⟨exponent, rest'⟩, hexponent, hread⟩ := Option.bind_eq_some_iff.mp hread
  obtain ⟨⟨modulus, rest''⟩, hmodulus, h⟩ := Option.bind_eq_some_iff.mp hread
  simp only [Option.ite_none_right_eq_some, Option.some.injEq, Prod.mk.injEq] at h
  obtain ⟨-, rfl⟩ := readField_eq_some hname
  obtain ⟨helen, rfl⟩ := readField_eq_some hexponent
  obtain ⟨hnlen, rfl⟩ := readField_eq_some hmodulus
  obtain ⟨⟨rfl, hemin, hnmin, rfl⟩, he, hn⟩ := h
  exact ⟨exponent, modulus, ⟨hemin, he⟩, ⟨hnmin, hn⟩, helen, hnlen, by simp⟩

/-- The blob is built from the bytes of the two numbers, if they fit. -/
theorem build_eq_ok (hn : 0 < value modulus) (he : 0 < value exponent) {key : String} :
    buildSshRsaPublicKeyFromJwk (String.ofList (Base64.encodeUrl modulus))
        (String.ofList (Base64.encodeUrl exponent)) = .ok key ↔
      ∃ blob, IsRsaBlob (value exponent) (value modulus) blob ∧
        key = "ssh-rsa " ++ String.ofList (Base64.encode blob) := by
  obtain ⟨ebytes, hempint, -, heq⟩ := encodeMpint_spec he
  obtain ⟨nbytes, hnmpint, -, hnq⟩ := encodeMpint_spec hn
  simp only [buildSshRsaPublicKeyFromJwk, base64UrlToBuffer_encodeUrl, heq, hnq]
  constructor
  · intro h
    obtain ⟨name, hname, h⟩ := bind_ok h
    obtain ⟨efield, hefield, h⟩ := bind_ok h
    obtain ⟨nfield, hnfield, h⟩ := bind_ok h
    obtain ⟨-, rfl⟩ := encodeSshField_eq_ok.mp hname
    obtain ⟨helen, rfl⟩ := encodeSshField_eq_ok.mp hefield
    obtain ⟨hnlen, rfl⟩ := encodeSshField_eq_ok.mp hnfield
    exact ⟨_, ⟨ebytes, nbytes, hempint, hnmpint, helen, hnlen, rfl⟩, (Except.ok.inj h).symm⟩
  · rintro ⟨blob, ⟨exponent, modulus, he', hn', helen, hnlen, rfl⟩, rfl⟩
    have hname : keyType.length < 2 ^ 32 := by decide
    rw [hempint.unique he', hnmpint.unique hn', encodeSshField_eq_ok.mpr ⟨hname, rfl⟩,
      encodeSshField_eq_ok.mpr ⟨helen, rfl⟩, encodeSshField_eq_ok.mpr ⟨hnlen, rfl⟩]
    rfl

/-- Only a number that RFC 4251 cannot write is not written. -/
theorem exists_blob (hn : 0 < value modulus) (he : 0 < value exponent)
    (hnlen : modulus.length + 1 < 2 ^ 32) (helen : exponent.length + 1 < 2 ^ 32) :
    ∃ blob, IsRsaBlob (value exponent) (value modulus) blob := by
  obtain ⟨ebytes, hempint, hele, -⟩ := encodeMpint_spec he
  obtain ⟨nbytes, hnmpint, hnle, -⟩ := encodeMpint_spec hn
  exact ⟨_, ebytes, nbytes, hempint, hnmpint, hele.trans_lt helen, hnle.trans_lt hnlen, rfl⟩

/-- A generated key is the blob of its numbers, which can be read from it; there is no key exactly
if the numbers have no blob, and then the bytes of one are too many for a length in four bytes. -/
theorem generated_key (hn : 0 < value modulus) (he : 0 < value exponent) :
    (∃ blob, IsRsaBlob (value exponent) (value modulus) blob ∧
      buildSshRsaPublicKeyFromJwk (String.ofList (Base64.encodeUrl modulus))
        (String.ofList (Base64.encodeUrl exponent)) =
          .ok ("ssh-rsa " ++ String.ofList (Base64.encode blob)) ∧
      readRsaBlob (Base64.decode (Base64.encode blob)) =
        some ((value exponent : ℤ), (value modulus : ℤ))) ∨
    (∀ blob, ¬ IsRsaBlob (value exponent) (value modulus) blob) ∧
      (2 ^ 32 ≤ modulus.length + 1 ∨ 2 ^ 32 ≤ exponent.length + 1) := by
  by_cases hblob : ∃ blob, IsRsaBlob (value exponent) (value modulus) blob
  · obtain ⟨blob, hblob⟩ := hblob
    refine .inl ⟨blob, hblob, (build_eq_ok hn he).mpr ⟨blob, hblob, rfl⟩, ?_⟩
    rw [Base64.decode_encode, hblob.read]
  · refine .inr ⟨not_exists.mp hblob, ?_⟩
    by_contra hfits
    rw [not_or, not_le, not_le] at hfits
    exact hblob (exists_blob hn he hfits.1 hfits.2)

example : buildSshRsaPublicKeyFromJwk "AMU" "AQAB" =
    .ok "ssh-rsa AAAAB3NzaC1yc2EAAAADAQABAAAAAgDF" := by decide +kernel

/-- A modulus with its top bit set, behind a zero byte. -/
theorem generated_key_top_bit :
    ∃ blob, IsRsaBlob 65537 197 blob ∧
      buildSshRsaPublicKeyFromJwk "AMU" "AQAB" =
        .ok ("ssh-rsa " ++ String.ofList (Base64.encode blob)) ∧
      readRsaBlob (Base64.decode (Base64.encode blob)) = some (65537, 197) := by
  have hmodulus : String.ofList (Base64.encodeUrl [0, 197]) = "AMU" := by decide +kernel
  have hexponent : String.ofList (Base64.encodeUrl [1, 0, 1]) = "AQAB" := by decide +kernel
  have hkey := @generated_key [0, 197] [1, 0, 1] (by decide) (by decide)
  rw [hmodulus, hexponent] at hkey
  exact hkey.resolve_right fun h => absurd h.2 (by decide)

end Built

end Blob

end CloudVM.SshKeyService
