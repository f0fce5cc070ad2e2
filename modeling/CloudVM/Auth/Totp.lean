import CloudVM.Auth.Base32
import CloudVM.Framework.Doubles
import Mathlib.Data.Rat.Floor

/-!
# One-time passwords

The codes of an authenticator app. The 64-bit counter is written as two words, and four bytes of
the digest at an offset that the digest itself names are put together with 32-bit shifts. Times
are milliseconds. They are doubles: `fl` is what rounds the result of an operation. The codes are
worked out exactly, with `id` for `fl`; `double` gives the same codes before 2^52.
-/

namespace CloudVM.Totp

open Text Bits Doubles

section Codes

/-- HMAC-SHA1, which yields twenty bytes. -/
structure HmacSha1 where
  digest : (key message : List UInt8) → List UInt8
  size : ∀ key message, (digest key message).length = 20

/-- The last `n` bytes of a number, the highest first. -/
def bigEndian : (n : ℕ) → ℕ → List UInt8
  | 0, _ => []
  | n + 1, value => UInt8.ofNat (value / 256 ^ n) :: bigEndian n value

/-- `Buffer.writeUInt32BE`, which refuses what is no word. -/
def writeUInt32BE (value : ℤ) : Except Failure (List UInt8) :=
  if 0 ≤ value ∧ value ≤ 0xffffffff then .ok (bigEndian 4 value.toNat)
  else .error ⟨.value, "The value of \"value\" is out of range."⟩

/-- `hmac[hmac.length - 1] & 0x0f`. -/
def truncationOffset (hmac : List UInt8) : ℕ := (hmac.getD (hmac.length - 1) 0 &&& 0x0f).toNat

/-- The byte at an index under a mask, moved up; what stands beyond the end counts as zero. -/
def maskedByte (hmac : List UInt8) (index : ℕ) (mask : UInt8) (shift : ℕ) : BitVec 32 :=
  shl ((hmac.getD index 0 &&& mask).toBitVec.setWidth 32) shift

/-- The number before it is cut down to six digits. -/
def truncatedBinary (hmac : List UInt8) : BitVec 32 :=
  let offset := truncationOffset hmac
  maskedByte hmac offset 0x7f 24 ||| maskedByte hmac (offset + 1) 0xff 16 |||
    maskedByte hmac (offset + 2) 0xff 8 ||| maskedByte hmac (offset + 3) 0xff 0

/-- `(binary % 1_000_000).toString().padStart(6, "0")`; the number is signed. -/
def sixDigits (binary : BitVec 32) : List Char :=
  List.leftpad 6 '0' (toString (binary.toInt.tmod 1000000)).toList

variable (upper : UpperCase) (hmac : HmacSha1) (fl : ℚ → ℚ)

def generateTotpCodeWith (secret : List Char) (forUnixTime : ℚ) : Except Failure (List Char) := do
  let secretKey ← base32Decode upper secret
  let timestep := ⌊fl (fl (forUnixTime / 1000) / 30)⌋
  let high ← writeUInt32BE ⌊fl ((timestep : ℚ) / 0x100000000)⌋
  let low ← writeUInt32BE (timestep % 0x100000000)
  pure (sixDigits (truncatedBinary (hmac.digest secretKey (high ++ low))))

/-- The loop over the window, with the offsets that are still to be tried. -/
def tryOffsetsWith (secret normalizedCode : List Char) (now : ℤ) : ℕ → ℤ → Except Failure Bool
  | 0, _ => .ok false
  | n + 1, offset => do
    let candidate ← generateTotpCodeWith upper hmac fl secret (fl (now + fl (offset * 30000)))
    if candidate = normalizedCode then pure true
    else tryOffsetsWith secret normalizedCode now n (offset + 1)

def verifyTotpCodeWith (secret : List Char) (code : String) (window : ℕ) (now : ℤ) :
    Except Failure Bool :=
  let normalizedCode := (jsTrim code).toList
  if matchClasses (List.replicate 6 Char.isDigit) normalizedCode = some [] then
    tryOffsetsWith upper hmac fl secret normalizedCode now (2 * window + 1) (-window)
  else .ok false

def verifyTotpCode (secret : List Char) (code : String) (window : ℕ) (now : ℤ) :
    Except Failure Bool :=
  verifyTotpCodeWith upper hmac id secret code window now

end Codes

section Standard

/-- The number that bytes spell, the highest first. -/
def bytesNumber (bytes : List UInt8) : ℕ := bytes.foldl (fun n b => 256 * n + b.toNat) 0

/-- RFC 4226, section 5.3: 31 bits of the digest, at the offset in its last four bits. -/
def dynamicTruncation (digest : List UInt8) : ℕ :=
  let offset := (digest.getD 19 0).toNat % 16
  bytesNumber ((digest.drop offset).take 4) % 2 ^ 31

/-- The HOTP value of a key and a counter as six digits. -/
def hotp (hmac : HmacSha1) (key : List UInt8) (counter : ℕ) : List Char :=
  List.leftpad 6 '0' (Nat.toDigits 10 (dynamicTruncation (hmac.digest key (bigEndian 8 counter)) % 10 ^ 6))

end Standard

section Counter

private theorem bigEndian_append (m n value : ℕ) :
    bigEndian (m + n) value = bigEndian m (value / 256 ^ n) ++ bigEndian n value := by
  induction m with
  | zero => simp [bigEndian]
  | succ m ih =>
    have hbyte : value / 256 ^ (m + n) = value / 256 ^ n / 256 ^ m := by
      rw [Nat.div_div_eq_div_mul, ← pow_add, Nat.add_comm n m]
    rw [Nat.add_right_comm, bigEndian, bigEndian, ih, hbyte, List.cons_append]

private theorem bigEndian_mod (n value : ℕ) : bigEndian n (value % 256 ^ n) = bigEndian n value := by
  have hword : ∀ m, n ≤ m → bigEndian n (value % 256 ^ m) = bigEndian n value := by
    induction n with
    | zero => exact fun _ _ => rfl
    | succ n ih =>
      intro m hm
      have hsplit : 256 ^ m = 256 ^ n * 256 ^ (m - n) := by
        rw [← pow_add, Nat.add_sub_of_le (by omega)]
      have hdvd : 256 ∣ 256 ^ (m - n) := dvd_pow_self _ (by omega)
      have hbyte : UInt8.ofNat (value % 256 ^ m / 256 ^ n) = UInt8.ofNat (value / 256 ^ n) := by
        rw [hsplit, Nat.mod_mul_right_div_self]
        apply UInt8.toNat_inj.mp
        simp only [UInt8.toNat_ofNat']
        exact Nat.mod_mod_of_dvd _ hdvd
      rw [bigEndian, bigEndian, ih m (by omega), hbyte]
  exact hword n le_rfl

private theorem writeCounter {counter : ℕ} (h : counter < 2 ^ 64) :
    writeUInt32BE ((counter / 256 ^ 4 : ℕ) : ℤ) = .ok (bigEndian 4 (counter / 256 ^ 4)) ∧
      writeUInt32BE ((counter : ℤ) % 0x100000000) = .ok (bigEndian 4 counter) := by
  have hlow : (counter : ℤ) % 0x100000000 = ((counter % 256 ^ 4 : ℕ) : ℤ) := by
    norm_num
  rw [hlow]
  constructor
  · rw [writeUInt32BE, if_pos (by constructor <;> omega), Int.toNat_natCast]
  · rw [writeUInt32BE, if_pos (by constructor <;> omega), Int.toNat_natCast, bigEndian_mod]

/-- Below a limit, times and counters come out as they are. -/
structure Counts (fl : ℚ → ℚ) (limit : ℕ) : Prop where
  time : ∀ (now t : ℕ) (offset : ℤ), now < limit → t < limit → (now : ℤ) + offset * 30000 = t →
    fl (now + fl (offset * 30000)) = t
  step : ∀ t : ℕ, t < limit → ⌊fl (fl ((t : ℚ) / 1000) / 30)⌋ = (t / 30000 : ℕ)
  high : ∀ counter : ℕ, counter < limit →
    ⌊fl ((counter : ℚ) / 0x100000000)⌋ = (counter / 256 ^ 4 : ℕ)

private theorem floor_natCast_div (t d : ℕ) : ⌊(t : ℚ) / d⌋ = (t / d : ℕ) :=
  Rat.floor_intCast_div_natCast t d

theorem counts_id (limit : ℕ) : Counts id limit where
  time now t offset _ _ h := by
    rw [id, id]
    exact_mod_cast h
  step t _ := by
    have hfloor := floor_natCast_div t 30000
    rw [id, id, div_div]
    norm_num at hfloor ⊢
    exact hfloor
  high counter _ := by
    have hfloor := floor_natCast_div counter (256 ^ 4)
    norm_num at hfloor ⊢
    exact hfloor

theorem counts_double : Counts double (2 ^ 52) where
  time now t offset hnow ht h := by
    have hshift : double (offset * 30000) = offset * 30000 := by
      have hround := nearest_intCast (p := 53) (n := offset * 30000) (by norm_num)
        (by rw [abs_le]; constructor <;> omega)
      push_cast at hround
      exact hround
    have hsum : (now : ℚ) + offset * 30000 = t := by exact_mod_cast h
    rw [hshift, hsum]
    exact nearest_natCast (by norm_num) (by omega)
  step t ht := by
    have hfloor := floor_nearest_div (p := 53) (t := t) (c := 1000) (d := 30) (by norm_num)
      (by norm_num) (by norm_num) (by omega)
    exact_mod_cast hfloor
  high counter hcounter := by
    have hfloor := floor_natCast_div counter (256 ^ 4)
    have hround := nearest_eq_self (p := 53) (m := counter) (k := -32) (by norm_num)
      (by rw [abs_le]; constructor <;> omega)
    have hscale : (counter : ℚ) / 0x100000000 = ((counter : ℤ) : ℚ) * 2 ^ (-32 : ℤ) := by
      norm_num
      ring
    rw [hscale, double, hround, ← hscale]
    norm_num at hfloor ⊢
    exact hfloor

end Counter

section Truncation

variable {digest : List UInt8}

private theorem offset_eq (h : digest.length = 20) :
    truncationOffset digest = (digest.getD 19 0).toNat % 16 := by
  rw [truncationOffset, h, UInt8.toNat_and]
  exact Nat.and_two_pow_sub_one_eq_mod _ 4

theorem truncationOffset_lt (h : digest.length = 20) : truncationOffset digest + 3 < digest.length := by
  rw [offset_eq h, h]
  omega

private theorem take_four {offset : ℕ} (h : offset + 3 < digest.length) :
    (digest.drop offset).take 4 = [digest.getD offset 0, digest.getD (offset + 1) 0,
      digest.getD (offset + 2) 0, digest.getD (offset + 3) 0] := by
  have hcons : ∀ i < digest.length, digest.drop i = digest.getD i 0 :: digest.drop (i + 1) := by
    intro i hi
    rw [List.getD_eq_getElem _ _ hi]
    exact List.drop_eq_getElem_cons hi
  rw [hcons _ (by omega), hcons _ (by omega), hcons _ (by omega), hcons _ (by omega)]
  rfl

private theorem truncatedBinary_toNat (h : digest.length = 20) :
    (truncatedBinary digest).toNat = dynamicTruncation digest := by
  have hinside := truncationOffset_lt h
  have hbytes := take_four hinside
  generalize hoffset : truncationOffset digest = offset at hinside hbytes
  have hlast := offset_eq h
  rw [hoffset] at hlast
  obtain ⟨b₀, hb₀⟩ : ∃ b, digest.getD offset 0 = b := ⟨_, rfl⟩
  obtain ⟨b₁, hb₁⟩ : ∃ b, digest.getD (offset + 1) 0 = b := ⟨_, rfl⟩
  obtain ⟨b₂, hb₂⟩ : ∃ b, digest.getD (offset + 2) 0 = b := ⟨_, rfl⟩
  obtain ⟨b₃, hb₃⟩ : ∃ b, digest.getD (offset + 3) 0 = b := ⟨_, rfl⟩
  have hmask : ∀ b : UInt8, b &&& 0xff = b := by
    intro b
    apply UInt8.toNat_inj.mp
    rw [UInt8.toNat_and]
    exact (Nat.and_two_pow_sub_one_eq_mod _ 8).trans (Nat.mod_eq_of_lt b.toNat_lt)
  have hword : ∀ b : UInt8, (b.toBitVec.setWidth 32).toNat = b.toNat := by
    intro b
    have hb := b.toNat_lt
    simp only [BitVec.toNat_setWidth, UInt8.toNat_toBitVec]
    omega
  have htop : ((b₀ &&& 0x7f).toBitVec.setWidth 32).toNat = b₀.toNat % 128 := by
    rw [hword, UInt8.toNat_and]
    exact Nat.and_two_pow_sub_one_eq_mod _ 7
  have h₀ := b₀.toNat_lt
  have h₁ := b₁.toNat_lt
  have h₂ := b₂.toNat_lt
  have h₃ := b₃.toNat_lt
  -- One byte after the other, each eight bits below the one before.
  have hhorner : truncatedBinary digest =
      ((((b₀ &&& 0x7f).toBitVec.setWidth 32 <<< 8 ||| b₁.toBitVec.setWidth 32) <<< 8 |||
        b₂.toBitVec.setWidth 32) <<< 8 ||| b₃.toBitVec.setWidth 32) := by
    simp only [truncatedBinary, maskedByte, hoffset, hb₀, hb₁, hb₂, hb₃, hmask]
    rw [shl_eq _ (by omega), shl_eq _ (by omega), shl_eq _ (by omega), shl_eq _ (by omega)]
    simp only [BitVec.shiftLeft_or_distrib, ← BitVec.shiftLeft_add, BitVec.shiftLeft_zero]
  have hfirst : ((b₀ &&& 0x7f).toBitVec.setWidth 32 <<< 8 ||| b₁.toBitVec.setWidth 32).toNat =
      b₀.toNat % 128 * 2 ^ 8 + b₁.toNat := by
    rw [toNat_shiftLeft_or _ _ _ (by omega) (by rw [hword]; omega), htop, hword]
  have hsecond : (((b₀ &&& 0x7f).toBitVec.setWidth 32 <<< 8 ||| b₁.toBitVec.setWidth 32) <<< 8 |||
      b₂.toBitVec.setWidth 32).toNat = (b₀.toNat % 128 * 2 ^ 8 + b₁.toNat) * 2 ^ 8 + b₂.toNat := by
    rw [toNat_shiftLeft_or _ _ _ (by omega) (by rw [hword]; omega), hfirst, hword]
  rw [hhorner, toNat_shiftLeft_or _ _ _ (by omega) (by rw [hword]; omega), hsecond, hword,
    dynamicTruncation, ← hlast, hbytes, hb₀, hb₁, hb₂, hb₃]
  simp only [bytesNumber, List.foldl_cons, List.foldl_nil]
  omega

private theorem sixDigits_truncatedBinary (h : digest.length = 20) :
    sixDigits (truncatedBinary digest) =
      List.leftpad 6 '0' (Nat.toDigits 10 (dynamicTruncation digest % 10 ^ 6)) := by
  have hnat := truncatedBinary_toNat h
  have hsmall : dynamicTruncation digest < 2 ^ 31 := Nat.mod_lt _ (by omega)
  have hsigned : (truncatedBinary digest).toInt = (dynamicTruncation digest : ℤ) := by
    rw [BitVec.toInt_eq_toNat_of_lt (by omega), hnat]
  have hmod : (dynamicTruncation digest : ℤ).tmod 1000000 =
      ((dynamicTruncation digest % 10 ^ 6 : ℕ) : ℤ) := (Int.ofNat_tmod _ 1000000)
  rw [sixDigits, hsigned, hmod]
  change List.leftpad 6 '0' (Nat.repr _).toList = _
  rw [Nat.toList_repr]

end Truncation

section Verification

variable (upper : UpperCase) (hmac : HmacSha1) (key : List UInt8)

/-- The latest time `Date.now()` can tell. -/
def maxTimeValue : ℕ := 8640000000000000

variable {fl : ℚ → ℚ} {limit : ℕ}

private theorem generateTotpCodeWith_eq (hfl : Counts fl limit) (hsmall : limit ≤ 2 ^ 64) {t : ℕ}
    (ht : t < limit) : generateTotpCodeWith upper hmac fl (base32Encode key) t =
      .ok (hotp hmac key (t / 30000)) := by
  have hcounter : t / 30000 < 2 ^ 64 := by omega
  obtain ⟨hhigh, hlow⟩ := writeCounter hcounter
  have hbytes := bigEndian_append 4 4 (t / 30000)
  rw [generateTotpCodeWith, (base32_rfc4648 upper key).2.1, hfl.step t ht]
  change (do
    let high ← writeUInt32BE ⌊fl (((t / 30000 : ℕ) : ℚ) / 0x100000000)⌋
    let low ← writeUInt32BE (((t / 30000 : ℕ) : ℤ) % 0x100000000)
    pure (sixDigits (truncatedBinary (hmac.digest key (high ++ low))))) = _
  rw [hfl.high (t / 30000) (by omega), hhigh, hlow]
  change Except.ok (sixDigits (truncatedBinary
    (hmac.digest key (bigEndian 4 (t / 30000 / 256 ^ 4) ++ bigEndian 4 (t / 30000))))) = _
  rw [← hbytes, sixDigits_truncatedBinary (hmac.size _ _), hotp]

private theorem tryOffsetsWith_eq (hfl : Counts fl limit) (hsmall : limit ≤ 2 ^ 64)
    (code : List Char) {now t : ℕ} {offset : ℤ} {n : ℕ} (htime : (now : ℤ) + offset * 30000 = t)
    (hnow : now < limit) (hlimit : ∀ k < n, t + 30000 * k < limit) :
    tryOffsetsWith upper hmac fl (base32Encode key) code now n offset =
      .ok (decide (∃ k < n, hotp hmac key (t / 30000 + k) = code)) := by
  induction n generalizing t offset with
  | zero => simp [tryOffsetsWith]
  | succ n ih =>
    have hnext : (now : ℤ) + (offset + 1) * 30000 = ((t + 30000 : ℕ) : ℤ) := by
      push_cast
      omega
    have hrest : ∀ k < n, t + 30000 + 30000 * k < limit := by
      intro k hk
      have hlast := hlimit (k + 1) (by omega)
      omega
    have hcounter : (t + 30000) / 30000 = t / 30000 + 1 := by omega
    have hexists : (∃ k < n + 1, hotp hmac key (t / 30000 + k) = code) ↔
        hotp hmac key (t / 30000) = code ∨ ∃ k < n, hotp hmac key (t / 30000 + 1 + k) = code := by
      rw [Nat.exists_lt_succ_left]
      simp only [Nat.add_zero, Nat.add_assoc, Nat.add_comm 1]
    have ht : t < limit := hlimit 0 (by omega)
    rw [tryOffsetsWith, Int.cast_natCast, hfl.time now t offset hnow ht htime,
      generateTotpCodeWith_eq upper hmac key hfl hsmall ht]
    simp only [hexists]
    by_cases hcode : hotp hmac key (t / 30000) = code
    · simp only [hcode, true_or, decide_true]
      exact if_pos rfl
    · simp only [hcode, false_or]
      refine Eq.trans (if_neg hcode) ?_
      have hlater := ih hnext hrest
      rwa [hcounter] at hlater

private theorem hotp_form (counter : ℕ) :
    matchClasses (List.replicate 6 Char.isDigit) (hotp hmac key counter) = some [] := by
  have hmatch : ∀ n (l : List Char), l.length = n → (∀ c ∈ l, c.isDigit = true) →
      matchClasses (List.replicate n Char.isDigit) l = some [] := by
    intro n l hl hdigits
    induction l generalizing n with
    | nil =>
      subst hl
      rfl
    | cons c l ih =>
      subst hl
      rw [List.length_cons, List.replicate_succ, matchClasses, if_pos (hdigits c (by simp))]
      exact ih _ rfl fun d hd => hdigits d (by simp [hd])
  apply hmatch
  · have hlen : (Nat.toDigits 10 (dynamicTruncation (hmac.digest key (bigEndian 8 counter)) %
        10 ^ 6)).length ≤ 6 :=
      (Nat.length_toDigits_le_iff (by omega) (by omega)).mpr (Nat.mod_lt _ (by omega))
    rw [hotp, List.length_leftpad]
    omega
  · intro c hc
    rw [hotp, List.leftpad] at hc
    rcases List.mem_append.mp hc with hc | hc
    · rw [List.eq_of_mem_replicate hc]
      rfl
    · exact Nat.isDigit_of_mem_toDigits (by omega) (by omega) hc

private theorem verifyTotpCodeWith_eq (hfl : Counts fl limit) (hsmall : limit ≤ 2 ^ 64)
    (code : String) {window now : ℕ} (hstart : 30000 * window ≤ now)
    (hend : now + 30000 * window < limit) :
    verifyTotpCodeWith upper hmac fl (base32Encode key) code window now =
      .ok (decide (∃ k < 2 * window + 1,
        hotp hmac key (now / 30000 - window + k) = (jsTrim code).toList)) := by
  by_cases hform : matchClasses (List.replicate 6 Char.isDigit) (jsTrim code).toList = some []
  · have htime : (now : ℤ) + (-(window : ℤ)) * 30000 = ((now - 30000 * window : ℕ) : ℤ) := by omega
    have hlimit : ∀ k < 2 * window + 1, now - 30000 * window + 30000 * k < limit := by
      intro k hk
      omega
    have hfirst : (now - 30000 * window) / 30000 = now / 30000 - window := by omega
    rw [verifyTotpCodeWith, if_pos hform,
      tryOffsetsWith_eq upper hmac key hfl hsmall _ htime (by omega) hlimit, hfirst]
  · have hnone : ¬ ∃ k < 2 * window + 1,
        hotp hmac key (now / 30000 - window + k) = (jsTrim code).toList := by
      intro ⟨k, _, hcode⟩
      rw [← hcode] at hform
      exact hform (hotp_form hmac key _)
    rw [verifyTotpCodeWith, if_neg hform, decide_eq_false hnone]

/-- Within the window exactly the codes of its counters are accepted, and no doubles round that away
before 2^52. The digest is never read beyond its end. -/
theorem verifyTotpCode_rfc6238 (code : String) (window now : ℕ) (hstart : 30000 * window ≤ now)
    (hend : now ≤ maxTimeValue) :
    (∃ accepted, verifyTotpCode upper hmac (base32Encode key) code window now = .ok accepted ∧
      (accepted = true ↔ ∃ counter, now / 30000 - window ≤ counter ∧
        counter ≤ now / 30000 + window ∧ (jsTrim code).toList = hotp hmac key counter)) ∧
    (now + 30000 * window < 2 ^ 52 →
      verifyTotpCodeWith upper hmac double (base32Encode key) code window now =
        verifyTotpCode upper hmac (base32Encode key) code window now) ∧
    ∀ secretKey message, truncationOffset (hmac.digest secretKey message) + 3 <
      (hmac.digest secretKey message).length := by
  have hwindow : (∃ counter, now / 30000 - window ≤ counter ∧ counter ≤ now / 30000 + window ∧
      (jsTrim code).toList = hotp hmac key counter) ↔
      ∃ k < 2 * window + 1, hotp hmac key (now / 30000 - window + k) = (jsTrim code).toList := by
    constructor
    · intro ⟨counter, hlow, hhigh, hcode⟩
      have hcounter : now / 30000 - window + (counter - (now / 30000 - window)) = counter := by omega
      exact ⟨counter - (now / 30000 - window), by omega, by rw [hcounter, hcode]⟩
    · intro ⟨k, hk, hcode⟩
      exact ⟨now / 30000 - window + k, by omega, by omega, hcode.symm⟩
  have hexact := verifyTotpCodeWith_eq upper hmac key (counts_id (2 ^ 64)) le_rfl code hstart
    (by simp only [maxTimeValue] at hend; omega)
  refine ⟨⟨_, hexact, ?_⟩, ?_, fun _ _ => truncationOffset_lt (hmac.size _ _)⟩
  · rw [decide_eq_true_iff, hwindow]
  · intro hearly
    have hdouble := verifyTotpCodeWith_eq upper hmac key counts_double (by norm_num) code hstart hearly
    exact hdouble.trans hexact.symm

def sampleKey : List UInt8 := "12345678901234567890".toList.map fun c => UInt8.ofNat c.toNat

/-- The digest of the counter 1 under that secret. -/
def HmacSha1.sample : HmacSha1 where
  digest := fun key message =>
    if key = sampleKey ∧ message = bigEndian 8 1 then
      [117, 164, 138, 25, 212, 203, 225, 0, 100, 78, 138, 193, 57,
        126, 234, 116, 122, 45, 51, 171]
    else List.replicate 20 0
  size := by
    intro key message
    split <;> rfl

/-- The test value for 59 seconds, with blanks around it. -/
theorem verifyTotpCode_rfc6238_sample :
    30000 * 0 ≤ 59000 ∧ 59000 ≤ maxTimeValue ∧
      verifyTotpCode .plain .sample (base32Encode sampleKey) " 287082 " 0 59000 = .ok true ∧
      verifyTotpCodeWith .plain .sample double (base32Encode sampleKey) " 287082 " 0 59000 =
        .ok true := by
  obtain ⟨⟨accepted, hrun, hiff⟩, hdouble, -⟩ :=
    verifyTotpCode_rfc6238 .plain .sample sampleKey " 287082 " 0 59000 (by decide) (by decide)
  have haccepted : accepted = true := hiff.mpr ⟨1, by decide, by decide, by decide⟩
  rw [haccepted] at hrun
  exact ⟨by decide, by decide, hrun, (hdouble (by norm_num)).trans hrun⟩

end Verification

end CloudVM.Totp
