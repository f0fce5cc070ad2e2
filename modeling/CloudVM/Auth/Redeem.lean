import CloudVM.Auth.Recovery

/-!
# Recovery codes at the door

`POST /auth/mfa/verify` validates its body before the service sees it: the code must be six digits.
A recovery code has eight characters beside its separators, so that no spelling of it gets
through, although the service would take every one of them.
-/

namespace CloudVM.Recovery

open Process AuthService Text

/-- Body of `POST /auth/mfa/verify`. -/
structure VerifyMfaDto where
  challengeId : String
  code : String
deriving DecidableEq, Repr

section Door

variable (isUUID : String → Bool)

/-- `@IsUUID()`, `@Length(6, 6)` and `@Matches(/^\d{6}$/)`. -/
def VerifyMfaDto.valid (dto : VerifyMfaDto) : Bool :=
  isUUID dto.challengeId && decide (dto.code.toList.length = 6) &&
    decide (matchClasses (List.replicate 6 Char.isDigit) dto.code.toList = some [])

/-- `verifyMfa` of the controller, behind its `ValidationPipe`. -/
def verifyMfa (env : AuthEnv) (dto : VerifyMfaDto) (req : RequestInfo) : AuthProcess AuthReply :=
  if dto.valid isUUID then verifyAdminMfa env dto.challengeId dto.code req
  else throw ⟨.badRequest, "Bad Request"⟩

end Door

section Spellings

def isSeparator (c : Char) : Bool := jsSpace c || c == '-'

/-- The characters beside the separators, as capitals. -/
def letters (text : String) : List Char :=
  (text.toList.filter fun c => !isSeparator c).map Char.toUpper

/-- The text differs from the code only in letter case, spaces or dashes. -/
def Spells (text code : String) : Prop := letters text = letters code

def hexDigits : List Char := "0123456789abcdef".toList

def hexCapitals : List Char := "0123456789ABCDEF".toList

/-- A text that `randomBytes(4).toString("hex")` can be. -/
structure HexText (raw : String) : Prop where
  length : raw.toList.length = 8
  digits : ∀ c ∈ raw.toList, c ∈ hexDigits

/-- What `toUpperCase` makes of ASCII. -/
def AsciiUpper (upper : String → String) : Prop :=
  ∀ s, (∀ c ∈ s.toList, c.toNat < 128) → upper s = String.ofList (s.toList.map Char.toUpper)

private theorem not_alphanum_of_separator {c : Char} (h : isSeparator c = true) :
    c.isAlphanum = false := by
  rw [Bool.eq_false_iff]
  intro halpha
  have hrange := isAlphanum_iff.mp halpha
  rw [isSeparator, Bool.or_eq_true] at h
  rcases h with h | h
  · simp only [jsSpace, Bool.or_eq_true, Bool.and_eq_true, decide_eq_true_eq, beq_iff_eq] at h
    omega
  · rw [eq_of_beq h] at halpha
    cases halpha

private theorem hexDigit_plain {c : Char} (h : c ∈ hexDigits) :
    c.toNat < 128 ∧ c.toUpper.toUpper = c.toUpper ∧ isSeparator c.toUpper = false ∧
      c.toUpper ∈ hexCapitals := by
  have hall : hexDigits.all (fun c => c.toNat < 128 ∧ c.toUpper.toUpper = c.toUpper ∧
      isSeparator c.toUpper = false ∧ c.toUpper ∈ hexCapitals) = true := by decide
  exact of_decide_eq_true (List.all_eq_true.mp hall c h)

private theorem hexCapital_plain {c : Char} (h : c ∈ hexCapitals) :
    c.toNat < 128 ∧ c.isAlphanum = true := by
  have hall : hexCapitals.all (fun c => c.toNat < 128 ∧ c.isAlphanum = true) = true := by decide
  exact of_decide_eq_true (List.all_eq_true.mp hall c h)

private theorem plain_of_toUpper {c : Char} (h : c.toUpper ∈ hexCapitals) :
    c.toNat < 128 ∧ c.isAlphanum = true := by
  by_cases hlower : 97 ≤ c.toNat ∧ c.toNat ≤ 122
  · refine ⟨by omega, ?_⟩
    exact isAlphanum_iff.mpr (.inr (.inr hlower))
  · have hsame : c.toUpper = c := by
      delta Char.toUpper
      rw [dif_neg]
      exact hlower
    rw [hsame] at h
    exact hexCapital_plain h

variable {env : RecoveryEnv} {raw : String}

private theorem upper_raw (hupper : AsciiUpper env.upper) (hraw : HexText raw) :
    (env.upper raw).toList = raw.toList.map Char.toUpper := by
  rw [hupper raw fun c hc => (hexDigit_plain (hraw.digits c hc)).1, String.toList_ofList]

/-- The letters of a code are the eight digits it was made from. -/
theorem letters_formatCode (hupper : AsciiUpper env.upper) (hraw : HexText raw) :
    letters (formatCode env raw) = raw.toList.map Char.toUpper := by
  have hkeep : ∀ cs : List Char, (∀ c ∈ cs, c ∈ hexDigits) →
      (cs.map Char.toUpper).filter (fun c => !isSeparator c) = cs.map Char.toUpper := by
    intro cs hcs
    apply List.filter_eq_self.mpr
    intro c hc
    obtain ⟨d, hd, rfl⟩ := List.mem_map.mp hc
    simp [(hexDigit_plain (hcs d hd)).2.2.1]
  have htwice : ∀ cs : List Char, (∀ c ∈ cs, c ∈ hexDigits) →
      (cs.map Char.toUpper).map Char.toUpper = cs.map Char.toUpper := by
    intro cs hcs
    rw [List.map_map]
    apply List.map_congr_left
    intro c hc
    exact (hexDigit_plain (hcs c hc)).2.1
  have hfirst : ∀ c ∈ raw.toList.take 4, c ∈ hexDigits :=
    fun c hc => hraw.digits c (List.mem_of_mem_take hc)
  have hsecond : ∀ c ∈ (raw.toList.drop 4).take 4, c ∈ hexDigits :=
    fun c hc => hraw.digits c (List.mem_of_mem_drop (List.mem_of_mem_take hc))
  have hdash : isSeparator '-' = true := by decide
  have hrest : (raw.toList.drop 4).take 4 = raw.toList.drop 4 := by
    apply List.take_of_length_le
    rw [List.length_drop, hraw.length]
  rw [letters, formatCode, upper_raw hupper hraw, String.toList_ofList, ← List.map_take,
    ← List.map_drop, ← List.map_take, List.filter_append, hkeep _ hfirst, List.filter_cons,
    hdash, hkeep _ hsecond]
  simp only [Bool.not_true, Bool.false_eq_true, if_false]
  rw [List.map_append, htwice _ hfirst, htwice _ hsecond, hrest, ← List.map_append,
    List.take_append_drop]

/-- A spelling has the eight letters of the code. -/
theorem length_of_spells (hupper : AsciiUpper env.upper) (hraw : HexText raw) {text : String}
    (h : Spells text (formatCode env raw)) : 8 ≤ text.toList.length := by
  have hletters : (letters text).length = 8 := by
    rw [h, letters_formatCode hupper hraw, List.length_map, hraw.length]
  rw [← hletters, letters, List.length_map]
  exact List.length_filter_le _ _

theorem invalid_of_spells (hupper : AsciiUpper env.upper) (hraw : HexText raw) {text : String}
    (h : Spells text (formatCode env raw)) (isUUID : String → Bool) (challengeId : String) :
    (VerifyMfaDto.mk challengeId text).valid isUUID = false := by
  have hlength := length_of_spells hupper hraw h
  have hne : decide (text.toList.length = 6) = false := decide_eq_false (by omega)
  simp [VerifyMfaDto.valid, hne]

theorem codeText_of_spells (hupper : AsciiUpper env.upper) (hraw : HexText raw) {text : String}
    (h : Spells text (formatCode env raw)) :
    codeText env text = String.ofList (raw.toList.map Char.toUpper) := by
  have hletters : letters text = raw.toList.map Char.toUpper := h.trans (letters_formatCode hupper hraw)
  have hplain : ∀ c ∈ text.toList, isSeparator c = false → c.toNat < 128 ∧ c.isAlphanum = true := by
    intro c hc hsep
    have hmem : c.toUpper ∈ letters text :=
      List.mem_map_of_mem (List.mem_filter.mpr ⟨hc, by simp [hsep]⟩)
    rw [hletters] at hmem
    obtain ⟨d, hd, hcd⟩ := List.mem_map.mp hmem
    apply plain_of_toUpper
    rw [← hcd]
    exact (hexDigit_plain (hraw.digits d hd)).2.2.2
  have hfilter : text.toList.filter Char.isAlphanum = text.toList.filter fun c => !isSeparator c := by
    apply List.filter_congr
    intro c hc
    cases hsep : isSeparator c with
    | true => simp [not_alphanum_of_separator hsep]
    | false => simp [(hplain c hc hsep).2]
  have hascii : ∀ c ∈ (String.ofList (text.toList.filter fun c => !isSeparator c)).toList,
      c.toNat < 128 := by
    intro c hc
    rw [String.toList_ofList] at hc
    obtain ⟨hmem, hsep⟩ := List.mem_filter.mp hc
    exact (hplain c hmem (by simpa using hsep)).1
  rw [codeText, normalizeRecoveryCode, hfilter, hupper _ hascii, String.toList_ofList, ← hletters]
  rfl

end Spellings

section Service

variable {env : RecoveryEnv} {raw text : String}

/-- Redis keeps the challenge, the user's row is there, and every call that the check of a code
and a new session need succeeds. -/
def Willing (challengeId : String) (payload : MfaChallengePayload) (user : AuthUser) :
    (c : AuthCall) → Unit → c.Answer → Unit → Prop
  | .redisGet key, _, r, _ => key = .mfaChallenge challengeId → r = .ok (some (.challenge payload))
  | .findUserById userId, _, r, _ => userId = payload.userId → r = .ok (some user)
  | .redisConnect, _, r, _ => r = .ok ()
  | .redisDel _, _, r, _ => r = .ok ()
  | .setRecoveryHashes _ _, _, r, _ => r = .ok ()
  | .createRefreshToken _ _ _, _, r, _ => r = .ok ()
  | _, _, _, _ => True

variable {challengeId : String} {payload : MfaChallengePayload} {user : AuthUser}

/-- Every outcome is a result with `Q`. -/
abbrev Yields {α : Type} (challengeId : String) (payload : MfaChallengePayload) (user : AuthUser)
    (p : AuthProcess α) (Q : α → Prop) : Prop :=
  p.Wp (fun _ _ => True) (Willing challengeId payload user) (Post (fun a _ => Q a) fun _ _ => False) ()

private theorem yields_bind {α β : Type} {p : AuthProcess α} {f : α → AuthProcess β} {Q : α → Prop}
    {R : β → Prop} (hp : Yields challengeId payload user p Q)
    (hf : ∀ a, Q a → Yields challengeId payload user (f a) R) :
    Yields challengeId payload user (p >>= f) R := by
  apply hp.bind
  · intro e u hout
    exact hout
  · intro a u hout
    exact hf a hout

private theorem yields_bestEffort (p : AuthProcess Unit) :
    Yields challengeId payload user (bestEffort p) fun _ => True := by
  apply (wp_true (fun _ _ => trivial) p ()).recover
  · intro a u _
    trivial
  · intro e u _
    trivial

private theorem spendHash_isSome {code hash : String} {hashes : List String} (hmem : hash ∈ hashes)
    (hmatch : env.bcryptCompare code hash = true) : (spendHash env.toAuthEnv code hashes).isSome := by
  have hsome : (hashes.findIdx? fun h => env.bcryptCompare code h).isSome = true := by
    rw [List.findIdx?_isSome, List.any_eq_true]
    exact ⟨hash, hmem, hmatch⟩
  obtain ⟨i, hi⟩ := Option.isSome_iff_exists.mp hsome
  simp [spendHash, hi]

private theorem consume_yields (hupper : AsciiUpper env.upper) (hraw : HexText raw)
    (hspell : Spells text (formatCode env raw)) {hash : String}
    (hmem : hash ∈ user.mfaRecoveryCodeHashes)
    (hmatch : env.bcryptCompare (codeText env (formatCode env raw)) hash = true) :
    Yields challengeId payload user (consumeRecoveryCode env.toAuthEnv payload.userId text)
      fun accepted => accepted = true := by
  have htext := codeText_of_spells hupper hraw hspell
  have hcode : codeText env (formatCode env raw) = String.ofList (raw.toList.map Char.toUpper) :=
    codeText_of_spells hupper hraw rfl
  have hlength : (normalizeRecoveryCode env.toAuthEnv text).toList.length = 8 := by
    rw [show normalizeRecoveryCode env.toAuthEnv text = _ from htext, String.toList_ofList, List.length_map, hraw.length]
  unfold consumeRecoveryCode
  dsimp only
  rw [if_neg (by omega)]
  refine (wp_bind _ _ _ _).mpr ⟨trivial, fun r _ hr => ?_⟩
  obtain rfl : r = .ok (some user) := hr rfl
  rw [hcode, ← htext] at hmatch
  obtain ⟨rest, hrest⟩ := Option.isSome_iff_exists.mp (spendHash_isSome hmem hmatch)
  have hspend : spendHash env.toAuthEnv (normalizeRecoveryCode env.toAuthEnv text)
    user.mfaRecoveryCodeHashes = some rest := hrest
  simp only [Process.ofExcept_ok, wp_ret, post_ok, hspend]
  refine (wp_bind _ _ _ _).mpr ⟨trivial, fun r _ hr => ?_⟩
  obtain rfl : r = .ok () := hr
  rfl

/-- Without the validation the request would be granted: whoever has a stored code signs in with
any spelling of it. -/
theorem verifyAdminMfa_yields (hupper : AsciiUpper env.upper) (hraw : HexText raw)
    (hspell : Spells text (formatCode env raw)) {hash : String}
    (hmem : hash ∈ user.mfaRecoveryCodeHashes)
    (hmatch : env.bcryptCompare (codeText env (formatCode env raw)) hash = true)
    (hmode : payload.mode = .totp) {req : RequestInfo} (hreq : payload.fingerprint = req.fingerprint)
    (hactive : user.isActive = true) :
    Yields challengeId payload user (verifyAdminMfa env.toAuthEnv challengeId text req)
      fun reply => ∃ pair, reply = .tokens pair (some payload.rememberMe) := by
  have hcheck : Yields challengeId payload user (checkCode env.toAuthEnv payload user text)
      fun accepted => accepted = true := by
    unfold checkCode
    rw [hmode]
    refine ⟨trivial, fun t _ _ => ?_⟩
    simp only [Process.bind_def, Process.ret_bind]
    split
    · rfl
    · apply yields_bind (consume_yields hupper hraw hspell hmem hmatch)
      intro accepted haccepted
      rw [haccepted]
      exact yields_bind (yields_bestEffort _) fun _ _ => rfl
  have hsession : Yields challengeId payload user
      (openSession env.toAuthEnv user req (some payload.rememberMe))
      fun reply => ∃ pair, reply = .tokens pair (some payload.rememberMe) := by
    have hpair : Yields challengeId payload user (generateTokens env.toAuthEnv user req)
        fun _ => True := by
      refine ⟨trivial, fun jti _ _ => ⟨trivial, fun t _ _ => ⟨trivial, fun r _ hr => ?_⟩⟩⟩
      obtain rfl : r = .ok () := hr
      trivial
    apply yields_bind hpair
    intro pair _
    have hcontext : Yields challengeId payload user (storeLoginContext env.toAuthEnv user.id req)
        fun _ => True := ⟨trivial, fun t _ _ => yields_bestEffort _⟩
    exact yields_bind hcontext fun _ _ => ⟨pair, rfl⟩
  refine (wp_bind _ _ _ _).mpr ⟨trivial, fun r _ hr => ?_⟩
  obtain rfl : r = .ok () := hr
  refine (wp_bind _ _ _ _).mpr ⟨trivial, fun r _ hr => ?_⟩
  obtain rfl : r = .ok (some (.challenge payload)) := hr rfl
  simp only [Process.ofExcept_ok, wp_ret, post_ok, hreq, ne_eq, not_true_eq_false, if_false]
  refine (wp_bind _ _ _ _).mpr ⟨trivial, fun r _ hr => ?_⟩
  obtain rfl : r = .ok (some user) := hr rfl
  simp only [Process.ofExcept_ok, wp_ret, post_ok, hactive, Bool.not_true, Bool.false_eq_true, if_false]
  apply yields_bind hcheck
  intro accepted haccepted
  rw [haccepted]
  refine (wp_bind _ _ _ _).mpr ⟨trivial, fun r _ hr => ?_⟩
  obtain rfl : r = .ok () := hr
  exact hsession

end Service

section HandedOut

def RecoveryReply.codes : RecoveryReply → List String
  | .enabled recoveryCodes => recoveryCodes
  | .regenerated recoveryCodes => recoveryCodes
  | _ => []

def HexAnswer : (c : RecoveryCall) → c.Answer → Prop
  | .randomHex _, raws => ∀ raw ∈ raws, HexText raw
  | _, _ => True

/-- The answers to the calls of a renewal, with random bytes that are hexadecimal digits. -/
def issuing (env : RecoveryEnv) (plainOf : String → Option String) (c : RecoveryCall)
    (s : RecoveryStore) (r : c.Answer) (s' : RecoveryStore) : Prop :=
  recoveryEffect env plainOf c s r s' ∧ HexAnswer c r

variable {env : RecoveryEnv} {userId : String}

def Generated (env : RecoveryEnv) (codes : List String) : Prop :=
  ∀ code ∈ codes, ∃ raw, HexText raw ∧ code = formatCode env raw

/-- Whatever it is answered, the process shows generated codes only. -/
abbrev Shows (env : RecoveryEnv) (p : RecoveryProcess RecoveryReply) : Prop :=
  p.Within (fun _ => True) HexAnswer fun reply => Generated env reply.codes

private theorem shows_bind {α : Type} (p : RecoveryProcess α) {f : α → RecoveryProcess RecoveryReply}
    (hf : ∀ a, Shows env (f a)) : Shows env (p >>= f) := by
  have hp : p.Within (fun _ => True) HexAnswer fun _ => True := by
    induction p with
    | ret a => trivial
    | raise e => trivial
    | call c k ih => exact ⟨trivial, fun r _ => ih r⟩
  exact within_bind hp fun a _ => hf a

private theorem shows_generated {f : List String → RecoveryProcess RecoveryReply}
    (hf : ∀ codes, Generated env codes → Shows env (f codes)) :
    Shows env (generateRecoveryCodes env >>= f) := by
  have hcodes : (generateRecoveryCodes env).Within (fun _ => True) HexAnswer (Generated env) := by
    refine ⟨trivial, fun raws hraws code hcode => ?_⟩
    obtain ⟨raw, hraw, rfl⟩ := List.mem_map.mp hcode
    exact ⟨raw, hraws raw hraw, rfl⟩
  exact within_bind hcodes hf

private theorem shows_nothing {reply : RecoveryReply} (h : reply.codes = []) :
    Shows env (pure reply) := by
  intro code hcode
  rw [h] at hcode
  cases hcode

private theorem shows_storeSetup (setup : MfaPendingSetupPayload) :
    Shows env (storeSetup env userId setup) := by
  apply shows_bind
  intro found
  cases found with
  | none => trivial
  | some user =>
    apply shows_generated
    intro codes hcodes
    apply shows_bind
    intro hashes
    apply shows_bind
    intro _
    apply shows_bind
    intro _
    apply shows_bind
    intro _
    exact hcodes

theorem handle_shows (q : RecoveryRequest) : Shows env (q.handle env userId) := by
  cases q with
  | consume code =>
    apply shows_bind
    intro accepted
    exact shows_nothing rfl
  | regenerate currentPassword =>
    apply shows_bind
    intro user
    split
    · trivial
    · apply shows_generated
      intro codes hcodes
      apply shows_bind
      intro hashes
      apply shows_bind
      intro _
      apply shows_bind
      intro _
      exact hcodes
  | enable code req =>
    apply shows_bind
    intro _
    apply shows_bind
    intro setup
    cases setup with
    | none => trivial
    | some setup =>
      cases setup with
      | none =>
        apply shows_bind
        intro _
        trivial
      | some setup =>
        dsimp only
        split
        · trivial
        · split
          · apply shows_bind
            intro _
            trivial
          · apply shows_bind
            intro t
            split
            · trivial
            · exact shows_storeSetup setup
  | disable currentPassword =>
    apply shows_bind
    intro _
    apply shows_bind
    intro _
    apply shows_bind
    intro _
    apply shows_bind
    intro _
    apply shows_bind
    intro _
    exact shows_nothing rfl

/-- No code that is handed out can be used: in every spelling it fails the validation, and the
request is refused before the service is asked. -/
theorem recovery_code_refused (hupper : AsciiUpper env.upper) {plainOf : String → Option String}
    {q : RecoveryRequest} {s s' : RecoveryStore} {reply : RecoveryReply}
    (hends : (q.handle env userId).Ends (issuing env plainOf) s (.ok reply) s') {code : String}
    (hcode : code ∈ reply.codes) {text : String} (hspell : Spells text code)
    (isUUID : String → Bool) (challengeId : String) (req : RequestInfo) :
    (VerifyMfaDto.mk challengeId text).valid isUUID = false ∧
      verifyMfa isUUID env.toAuthEnv ⟨challengeId, text⟩ req = throw ⟨.badRequest, "Bad Request"⟩ := by
  have hgenerated : Generated env reply.codes :=
    (handle_shows q).ends (fun c s r s' h => h.2) hends
  obtain ⟨raw, hraw, rfl⟩ := hgenerated code hcode
  have hinvalid := invalid_of_spells hupper hraw hspell isUUID challengeId
  refine ⟨hinvalid, ?_⟩
  rw [verifyMfa, hinvalid]
  rfl

end HandedOut

section Sample

private def capitals (s : String) : String := String.ofList (s.toList.map Char.toUpper)

private theorem asciiUpper_capitals : AsciiUpper capitals := fun _ _ => rfl

private def sampleEnv : RecoveryEnv :=
  { AuthEnv.sample with upper := capitals, mfaRecoveryCodesCount := 5 }

private def owner : AuthUser where
  id := "u"
  email := "a@b.c"
  password := "hash of pw"
  firstName := "A"
  lastName := "B"
  mfaEnabled := true
  mfaSecret := some "S"

private def ownerStore : RecoveryStore where
  users := ⟨[owner], List.nodup_singleton _⟩
  generated := []
  written := []

private def sampleRaws : List String := ["1a2b3c4d", "5e6f7081", "92a3b4c5", "d6e7f809", "1a2b3c4e"]

private theorem hexText_sample : ∀ raw ∈ sampleRaws, HexText raw := by
  have hall : sampleRaws.all (fun raw => raw.toList.length = 8 ∧
      raw.toList.all fun c => c ∈ hexDigits) = true := by decide
  intro raw hraw
  obtain ⟨hlength, hdigits⟩ := of_decide_eq_true (List.all_eq_true.mp hall raw hraw)
  refine ⟨hlength, fun c hc => ?_⟩
  simpa using List.all_eq_true.mp hdigits c hc

private theorem regenerated_run : ((RecoveryRequest.regenerate "pw").handle sampleEnv "u").May
    (issuing sampleEnv some) (fun out _ => ∃ reply, out = .ok reply ∧ "1A2B-3C4D" ∈ reply.codes)
      ownerStore := by
  apply May.call (I := recoveryInterface) (c := RecoveryCall.auth (.findUserById "u"))
    (r := .ok (some owner)) ⟨⟨rfl, .inl rfl⟩, trivial⟩
  apply May.call (I := recoveryInterface) (c := RecoveryCall.randomHex 5) (r := sampleRaws)
    ⟨⟨by decide, by simp [ownerStore], rfl⟩, hexText_sample⟩
  apply May.call (I := recoveryInterface) (c := RecoveryCall.hashAll _)
    (r := (sampleRaws.map (formatCode sampleEnv)).map (codeText sampleEnv))
    ⟨⟨rfl, rfl⟩, trivial⟩
  apply May.call (I := recoveryInterface) (c := RecoveryCall.updateMfa "u" _) (r := .ok ())
    ⟨.inr ⟨by decide, .inl ⟨rfl, rfl⟩⟩, trivial⟩
  apply May.call (I := recoveryInterface) (c := RecoveryCall.auth (.logMfaAudit "u" _))
    (r := .ok ()) ⟨rfl, trivial⟩
  exact May.ret ⟨_, rfl, by decide⟩

private theorem spells_sample : Spells "1a2b 3c4d" "1A2B-3C4D" := by
  rw [Spells]
  decide

/-- A new code, typed in small letters with a space for the dash. -/
theorem recovery_code_refused_typed : ∃ s' reply code,
    ((RecoveryRequest.regenerate "pw").handle sampleEnv "u").Ends (issuing sampleEnv some) ownerStore
      (.ok reply) s' ∧ code ∈ reply.codes ∧
    (VerifyMfaDto.mk "c" "1a2b 3c4d").valid (fun _ => true) = false := by
  obtain ⟨_, s', hends, reply, rfl, hcode⟩ := regenerated_run
  have hupper : AsciiUpper sampleEnv.upper := asciiUpper_capitals
  have hrefused := recovery_code_refused hupper hends hcode spells_sample (fun _ => true) "c"
    ⟨"f", "203.0.113.9", "curl", none⟩
  exact ⟨s', reply, _, hends, hcode, hrefused.1⟩

/-- A new code fails the validation as it was shown. -/
theorem shown_code_invalid :
    ¬ ∀ (env : RecoveryEnv) (userId : String) (plainOf : String → Option String)
      (q : RecoveryRequest) (s s' : RecoveryStore) (reply : RecoveryReply) (code text : String)
      (isUUID : String → Bool) (challengeId : String), AsciiUpper env.upper →
      (q.handle env userId).Ends (issuing env plainOf) s (.ok reply) s' → code ∈ reply.codes →
      Spells text code → isUUID challengeId = true →
      (VerifyMfaDto.mk challengeId text).valid isUUID = true := by
  intro h
  obtain ⟨_, s', hends, reply, rfl, hcode⟩ := regenerated_run
  have hvalid := h sampleEnv "u" some _ _ s' reply _ "1A2B-3C4D" (fun _ => true) "c"
    asciiUpper_capitals hends hcode rfl rfl
  revert hvalid
  decide

end Sample

end CloudVM.Recovery
