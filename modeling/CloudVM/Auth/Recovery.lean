import CloudVM.Auth.Service
import CloudVM.Framework.Phases

/-!
# Recovery codes

`consumeRecoveryCode`, `regenerateRecoveryCodes`, `enableAdminTotp` and `disableAdminTotp` for one
user. The list of hashes is a column of the user's row: it is read, searched and written back
whole. Which text a hash was made from is known to nobody but is part of the model, as are the
texts that were generated and those that were ever stored.
-/

namespace CloudVM.Recovery

open Process AuthService

/-- The settings of the auth service with the number of codes in a set. -/
structure RecoveryEnv extends AuthEnv where
  mfaRecoveryCodesCount : Nat := 10

structure MfaPendingSetupPayload where
  userId : String
  email : String
  secret : String
  fingerprint : String
deriving DecidableEq, Repr

/-- `data` of the `user.update` calls; a column that is `none` is not written. -/
structure MfaUpdate where
  mfaEnabled : Option Bool := none
  mfaSecret : Option (Option String) := none
  mfaRecoveryCodeHashes : List String
deriving DecidableEq, Repr

/-- A pending setup is `none` inside when its text is not JSON. -/
inductive RecoveryCall where
  | auth (c : AuthCall)
  | randomHex (count : Nat)
  | hashAll (texts : List String)
  | updateMfa (userId : String) (data : MfaUpdate)
  | getSetup (userId : String)
  | delSetup (userId : String)

@[reducible] def RecoveryCall.Answer : RecoveryCall → Type
  | .auth c => c.Answer
  | .randomHex _ => List String
  | .hashAll _ => List String
  | .updateMfa _ _ => Except Failure Unit
  | .getSetup _ => Except Failure (Option (Option MfaPendingSetupPayload))
  | .delSetup _ => Except Failure Unit

@[reducible] def recoveryInterface : Interface where
  Call := RecoveryCall
  Answer := RecoveryCall.Answer

abbrev RecoveryProcess (α : Type) := Process recoveryInterface Failure α

inductive RecoveryReply where
  | consumed (accepted : Bool)
  | enabled (recoveryCodes : List String)
  | regenerated (recoveryCodes : List String)
  | disabled
deriving DecidableEq, Repr

inductive RecoveryRequest where
  | consume (code : String)
  | regenerate (currentPassword : String)
  | enable (code : String) (req : RequestInfo)
  | disable (currentPassword : String)
deriving DecidableEq, Repr

section Requests

variable (env : RecoveryEnv)

def ofAuth {α : Type} (p : AuthProcess α) : RecoveryProcess α :=
  p.lift RecoveryCall.auth fun _ r => r

def updateMfa (userId : String) (data : MfaUpdate) : RecoveryProcess Unit :=
  .call (.updateMfa userId data) .ofExcept

def delSetup (userId : String) : RecoveryProcess Unit := .call (.delSetup userId) .ofExcept

/-- `XXXX-XXXX`. -/
def formatCode (hex : String) : String :=
  let raw := env.upper hex
  String.ofList (raw.toList.take 4 ++ '-' :: (raw.toList.drop 4).take 4)

/-- The text that is hashed for a code, or compared. -/
abbrev codeText (code : String) : String := normalizeRecoveryCode env.toAuthEnv code

def generateRecoveryCodes : RecoveryProcess (List String) := do
  let raws ← .call (.randomHex env.mfaRecoveryCodesCount) .ret
  pure (raws.map (formatCode env))

def hashRecoveryCodes (codes : List String) : RecoveryProcess (List String) :=
  .call (.hashAll (codes.map (codeText env))) .ret

def assertCurrentPassword (userId password : String) : RecoveryProcess AuthUser := do
  match ← ofAuth (findUserById userId) with
  | none => throw ⟨.unauthorized, "User not found or inactive"⟩
  | some user =>
    if !user.isActive then throw ⟨.unauthorized, "User not found or inactive"⟩
    else if !env.bcryptCompare password user.password then
      throw ⟨.unauthorized, "Invalid password for MFA re-authentication"⟩
    else pure user

def regenerateRecoveryCodes (userId currentPassword : String) : RecoveryProcess RecoveryReply := do
  let user ← assertCurrentPassword env userId currentPassword
  if !user.mfaEnabled then
    throw ⟨.unauthorized, "Enable MFA before generating recovery codes"⟩
  else
    let plainRecoveryCodes ← generateRecoveryCodes env
    let hashedRecoveryCodes ← hashRecoveryCodes env plainRecoveryCodes
    updateMfa userId { mfaRecoveryCodeHashes := hashedRecoveryCodes }
    ofAuth (logMfaAudit userId "recovery_codes_regenerated")
    pure (.regenerated plainRecoveryCodes)

/-- `enableAdminTotp` with a setup that belongs to the caller and a code that fits it. -/
def storeSetup (userId : String) (setup : MfaPendingSetupPayload) :
    RecoveryProcess RecoveryReply := do
  match ← ofAuth (findUserById userId) with
  | none => throw ⟨.unauthorized, "Only authenticated users can configure MFA"⟩
  | some _ =>
    let plainRecoveryCodes ← generateRecoveryCodes env
    let hashedRecoveryCodes ← hashRecoveryCodes env plainRecoveryCodes
    updateMfa userId
      { mfaEnabled := some true, mfaSecret := some (some setup.secret),
        mfaRecoveryCodeHashes := hashedRecoveryCodes }
    delSetup userId
    ofAuth (logMfaAudit userId "setup_enabled")
    pure (.enabled plainRecoveryCodes)

def enableAdminTotp (userId code : String) (req : RequestInfo) : RecoveryProcess RecoveryReply := do
  ofAuth ensureRedisConnected
  match ← .call (.getSetup userId) .ofExcept with
  | none => throw ⟨.unauthorized, "MFA setup session expired. Re-run setup."⟩
  | some none =>
    delSetup userId
    throw ⟨.unauthorized, "MFA setup session is invalid"⟩
  | some (some setup) =>
    if setup.userId ≠ userId then
      throw ⟨.unauthorized, "MFA setup does not belong to current user"⟩
    else if setup.fingerprint ≠ req.fingerprint then
      delSetup userId
      throw ⟨.unauthorized, "MFA setup fingerprint mismatch"⟩
    else
      let t ← ofAuth now
      if !env.verifyTotpCode setup.secret code t then throw ⟨.unauthorized, "Invalid TOTP code"⟩
      else storeSetup env userId setup

def disableAdminTotp (userId currentPassword : String) : RecoveryProcess RecoveryReply := do
  let _ ← assertCurrentPassword env userId currentPassword
  updateMfa userId { mfaEnabled := some false, mfaSecret := some none, mfaRecoveryCodeHashes := [] }
  ofAuth ensureRedisConnected
  delSetup userId
  ofAuth (logMfaAudit userId "setup_disabled")
  pure .disabled

def consumeCode (userId code : String) : RecoveryProcess RecoveryReply := do
  let accepted ← ofAuth (consumeRecoveryCode env.toAuthEnv userId code)
  pure (.consumed accepted)

def RecoveryRequest.handle (userId : String) : RecoveryRequest → RecoveryProcess RecoveryReply
  | .consume code => consumeCode env userId code
  | .regenerate currentPassword => regenerateRecoveryCodes env userId currentPassword
  | .enable code req => enableAdminTotp env userId code req
  | .disable currentPassword => disableAdminTotp env userId currentPassword

end Requests

section Store

/-- The users, the texts generated so far, and those that were ever stored for the user. -/
structure RecoveryStore where
  users : Table AuthUser.id
  generated : List String
  written : List String

def MfaUpdate.apply (data : MfaUpdate) (u : AuthUser) : AuthUser :=
  { u with
    mfaEnabled := data.mfaEnabled.getD u.mfaEnabled
    mfaSecret := data.mfaSecret.getD u.mfaSecret
    mfaRecoveryCodeHashes := data.mfaRecoveryCodeHashes }

namespace RecoveryStore

variable (s : RecoveryStore)

def hashesOf (userId : String) : List String :=
  ((s.users.find? userId).map AuthUser.mfaRecoveryCodeHashes).getD []

def updateUser (userId : String) (f : AuthUser → AuthUser) (hf : ∀ u, (f u).id = u.id) :
    RecoveryStore := { s with users := s.users.modify (fun u => u.id = userId) f hf }

def setHashes (userId : String) (hashes : List String) : RecoveryStore :=
  s.updateUser userId (fun u => { u with mfaRecoveryCodeHashes := hashes })
    (AuthUser.id_with_hashes hashes)

/-- A new set of codes takes the place of the old one. -/
def renew (plainOf : String → Option String) (userId : String) (data : MfaUpdate) : RecoveryStore :=
  { s.updateUser userId data.apply (fun _ => rfl) with
    written := s.written ++ data.mfaRecoveryCodeHashes.filterMap plainOf }

/-- A write to the user's row: it needs the row, and one that fails may have been done. -/
def Writes (userId : String) (t : RecoveryStore) (r : Except Failure Unit) (s' : RecoveryStore) :
    Prop :=
  (s.users.find? userId = none ∧ (∃ e, r = .error e) ∧ s' = s) ∨
  (s.users.find? userId ≠ none ∧
    ((r = .ok () ∧ s' = t) ∨ ((∃ e, r = .error e) ∧ (s' = s ∨ s' = t))))

end RecoveryStore

/-- How the calls are answered. Generated codes are new, also where they differ in case or in
their separators only, and a hash is one of the text it was made from. -/
def recoveryEffect (env : RecoveryEnv) (plainOf : String → Option String) :
    (c : RecoveryCall) → RecoveryStore → c.Answer → RecoveryStore → Prop
  | .auth (.findUserById userId), s, r, s' =>
      s' = s ∧ (r = .ok (s.users.find? userId) ∨ ∃ e, r = .error e)
  | .auth (.setRecoveryHashes userId hashes), s, r, s' =>
      s.Writes userId (s.setHashes userId hashes) r s'
  | .auth _, s, _, s' => s' = s
  | .randomHex _, s, raws, s' =>
      let texts := raws.map fun raw => codeText env (formatCode env raw)
      texts.Nodup ∧ (∀ text ∈ texts, text ∉ s.generated) ∧
        s' = { s with generated := s.generated ++ texts }
  | .hashAll texts, s, hashes, s' => hashes.map plainOf = texts.map some ∧ s' = s
  | .updateMfa userId data, s, r, s' => s.Writes userId (s.renew plainOf userId data) r s'
  | .getSetup _, s, _, s' => s' = s
  | .delSetup _, s, _, s' => s' = s

/-- The requests for one user. Meanwhile accounts may be edited, the user's codes apart. -/
def recoveryServer (env : RecoveryEnv) (plainOf : String → Option String) (userId : String) :
    Server recoveryInterface Failure RecoveryReply RecoveryRequest RecoveryStore where
  handler := RecoveryRequest.handle env userId
  effect := fun _ _ => recoveryEffect env plainOf
  change := fun s s' => s'.hashesOf userId = s.hashesOf userId ∧ s'.generated = s.generated ∧
    s'.written = s.written

abbrev RecoveryStage :=
  Stage recoveryInterface Failure RecoveryReply RecoveryRequest RecoveryStore

end Store

section Phases

/-- How far a request has come: what it has read, generated or hashed, and whether its write was
confirmed. -/
inductive CodePhase where
  | idle
  | looked (hashes : List String)
  | generated (texts : List String)
  | hashed (hashes : List String)
  | spent
  | stored
  | gaveUp
deriving DecidableEq, Repr

def RecoveryRequest.isConsume : RecoveryRequest → Bool
  | .consume _ => true
  | _ => false

def CodePhase.advance (env : RecoveryEnv) (q : RecoveryRequest) (φ : CodePhase) :
    (c : RecoveryCall) → c.Answer → CodePhase
  | .auth (.findUserById _), r =>
    match q.isConsume, φ, r with
    | true, .idle, .ok (some user) => .looked user.mfaRecoveryCodeHashes
    | _, φ, _ => φ
  | .auth (.setRecoveryHashes _ _), r =>
    match r with
    | .ok _ => .spent
    | .error _ => .gaveUp
  | .randomHex _, raws => .generated (raws.map fun raw => codeText env (formatCode env raw))
  | .hashAll _, hashes => .hashed hashes
  | .updateMfa _ _, r =>
    match r with
    | .ok _ => .stored
    | .error _ => .gaveUp
  | _, _ => φ

def CodePhase.Permits (env : RecoveryEnv) (userId : String) (q : RecoveryRequest) (φ : CodePhase) :
    RecoveryCall → Prop
  | .auth (.findUserById w) => w = userId
  | .auth (.setRecoveryHashes w hashes) => w = userId ∧ ∃ code read, q = .consume code ∧
      φ = .looked read ∧ spendHash env.toAuthEnv (codeText env code) read = some hashes
  | .randomHex _ => q.isConsume = false ∧ φ = .idle
  | .hashAll texts => φ = .generated texts
  | .updateMfa w data => w = userId ∧ q.isConsume = false ∧
      (φ = .hashed data.mfaRecoveryCodeHashes ∨ (φ = .idle ∧ data.mfaRecoveryCodeHashes = []))
  | _ => True

/-- A code is accepted after its write, and a renewal ends after its own. -/
def CodePhase.Returns (q : RecoveryRequest) (a : RecoveryReply) (φ : CodePhase) : Prop :=
  (a = .consumed true → φ = .spent) ∧ (q.isConsume = false → φ = .stored)

abbrev CodeMoves (env : RecoveryEnv) (q : RecoveryRequest) :
    (c : RecoveryCall) → CodePhase → c.Answer → CodePhase → Prop :=
  fun c φ r φ' => True ∧ φ' = φ.advance env q c r

variable {env : RecoveryEnv} {userId : String} {q : RecoveryRequest}

private theorem audit_wp (action : String) {reply : RecoveryReply} {φ : CodePhase}
    (h : CodePhase.Returns q reply φ) :
    (ofAuth (logMfaAudit userId action) >>= fun _ => (pure reply : RecoveryProcess RecoveryReply)).Wp
      (CodePhase.Permits env userId q) (CodeMoves env q)
      (Post (CodePhase.Returns q) fun _ _ => True) φ := by
  refine ⟨trivial, ?_⟩
  rintro (e | u) φ' ⟨-, rfl⟩
  · exact h
  · exact h

private theorem advance_lookup (hq : q.isConsume = false) (r : Except Failure (Option AuthUser)) :
    CodePhase.advance env q .idle (.auth (.findUserById userId)) r = .idle := by
  simp [CodePhase.advance, hq]

private theorem assertCurrentPassword_wp (hq : q.isConsume = false) (password : String) :
    (assertCurrentPassword env userId password).Wp (CodePhase.Permits env userId q)
      (CodeMoves env q) (fun _ φ => φ = .idle) .idle := by
  unfold assertCurrentPassword
  rw [wp_bind]
  refine ⟨rfl, ?_⟩
  rintro r φ ⟨-, rfl⟩
  rw [advance_lookup hq]
  rcases r with e | (_ | user)
  · rfl
  · rfl
  · cases hactive : user.isActive with
    | false =>
      change (if !user.isActive then _ else _ : RecoveryProcess AuthUser).Wp _ _ _ _
      rw [hactive]
      rfl
    | true =>
      change (if !user.isActive then _ else _ : RecoveryProcess AuthUser).Wp _ _ _ _
      rw [hactive]
      by_cases hpassword : env.bcryptCompare password user.password = true
      · simp [hpassword]
      · simp [hpassword]

private theorem newCodes_wp (hq : q.isConsume = false)
    {k : List String → List String → RecoveryProcess RecoveryReply}
    (hk : ∀ codes hashes, (k codes hashes).Wp (CodePhase.Permits env userId q) (CodeMoves env q)
      (Post (CodePhase.Returns q) fun _ _ => True) (.hashed hashes)) :
    (generateRecoveryCodes env >>= fun codes => hashRecoveryCodes env codes >>= fun hashes =>
      k codes hashes).Wp (CodePhase.Permits env userId q) (CodeMoves env q)
      (Post (CodePhase.Returns q) fun _ _ => True) .idle := by
  refine ⟨⟨hq, rfl⟩, ?_⟩
  rintro raws φ ⟨-, rfl⟩
  refine ⟨?_, ?_⟩
  · simp [CodePhase.Permits, CodePhase.advance, Function.comp_def]
  · rintro hashes φ ⟨-, rfl⟩
    exact hk _ hashes

theorem regenerateRecoveryCodes_wp (password : String) :
    (regenerateRecoveryCodes env userId password).Wp
      (CodePhase.Permits env userId (.regenerate password)) (CodeMoves env (.regenerate password))
      (Post (CodePhase.Returns (.regenerate password)) fun _ _ => True) .idle := by
  unfold regenerateRecoveryCodes
  rw [wp_bind]
  apply (assertCurrentPassword_wp rfl password).mono
  rintro (e | user) φ rfl
  · trivial
  cases hmfa : user.mfaEnabled with
  | false =>
    simp only [post_ok, hmfa]
    trivial
  | true =>
    simp only [post_ok, hmfa, Bool.not_true, Bool.false_eq_true, if_false]
    apply newCodes_wp rfl
    intro codes hashes
    refine ⟨⟨rfl, rfl, .inl rfl⟩, ?_⟩
    rintro (e | u) φ ⟨-, rfl⟩
    · trivial
    · exact audit_wp _ ⟨by simp, fun _ => rfl⟩

theorem disableAdminTotp_wp (password : String) :
    (disableAdminTotp env userId password).Wp
      (CodePhase.Permits env userId (.disable password)) (CodeMoves env (.disable password))
      (Post (CodePhase.Returns (.disable password)) fun _ _ => True) .idle := by
  unfold disableAdminTotp
  rw [wp_bind]
  apply (assertCurrentPassword_wp rfl password).mono
  rintro (e | user) φ rfl
  · trivial
  refine ⟨⟨rfl, rfl, .inr ⟨rfl, rfl⟩⟩, ?_⟩
  rintro (e | u) φ ⟨-, rfl⟩
  · trivial
  refine ⟨trivial, ?_⟩
  rintro (e | u) φ ⟨-, rfl⟩
  · trivial
  refine ⟨trivial, ?_⟩
  rintro (e | u) φ ⟨-, rfl⟩
  · trivial
  · exact audit_wp _ ⟨by simp, fun _ => rfl⟩

private theorem storeSetup_wp (hq : q.isConsume = false) (setup : MfaPendingSetupPayload) :
    (storeSetup env userId setup).Wp (CodePhase.Permits env userId q) (CodeMoves env q)
      (Post (CodePhase.Returns q) fun _ _ => True) .idle := by
  unfold storeSetup
  rw [wp_bind]
  refine ⟨rfl, ?_⟩
  rintro r φ ⟨-, rfl⟩
  rw [advance_lookup hq]
  rcases r with e | (_ | user)
  · trivial
  · trivial
  apply newCodes_wp hq
  intro codes hashes
  refine ⟨⟨rfl, hq, .inl rfl⟩, ?_⟩
  rintro (e | u) φ ⟨-, rfl⟩
  · trivial
  refine ⟨trivial, ?_⟩
  rintro (e | u) φ ⟨-, rfl⟩
  · trivial
  · exact audit_wp _ ⟨by simp, fun _ => rfl⟩

theorem enableAdminTotp_wp (code : String) (req : RequestInfo) :
    (enableAdminTotp env userId code req).Wp
      (CodePhase.Permits env userId (.enable code req)) (CodeMoves env (.enable code req))
      (Post (CodePhase.Returns (.enable code req)) fun _ _ => True) .idle := by
  have hdrop : ∀ failure : Failure, (delSetup userId >>= fun _ =>
      (throw failure : RecoveryProcess RecoveryReply)).Wp
        (CodePhase.Permits env userId (.enable code req)) (CodeMoves env (.enable code req))
        (Post (CodePhase.Returns (.enable code req)) fun _ _ => True) .idle := by
    intro failure
    refine ⟨trivial, ?_⟩
    rintro (e | u) φ _ <;> trivial
  refine ⟨trivial, ?_⟩
  rintro (e | u) φ ⟨-, rfl⟩
  · trivial
  refine ⟨trivial, ?_⟩
  rintro (e | (_ | (_ | setup))) φ ⟨-, rfl⟩
  · trivial
  · trivial
  · exact hdrop _
  change (if setup.userId ≠ userId then _ else _ : RecoveryProcess RecoveryReply).Wp _ _ _ _
  split
  · trivial
  split
  · exact hdrop _
  refine ⟨trivial, ?_⟩
  rintro t φ ⟨-, rfl⟩
  change (if !env.verifyTotpCode setup.secret code t then _ else _ :
    RecoveryProcess RecoveryReply).Wp _ _ _ _
  split
  · trivial
  · exact storeSetup_wp rfl setup

theorem consumeCode_wp (code : String) :
    (consumeCode env userId code).Wp
      (CodePhase.Permits env userId (.consume code)) (CodeMoves env (.consume code))
      (Post (CodePhase.Returns (.consume code)) fun _ _ => True) .idle := by
  have hrefused : ∀ φ, CodePhase.Returns (.consume code) (.consumed false) φ :=
    fun φ => ⟨by simp, fun h => by cases h⟩
  by_cases hshort : (codeText env code).toList.length < 8
  · simp only [consumeCode, consumeRecoveryCode, hshort, if_true]
    exact hrefused _
  · simp only [consumeCode, consumeRecoveryCode, hshort, if_false]
    refine ⟨rfl, ?_⟩
    rintro (e | (_ | user)) φ ⟨-, rfl⟩
    · trivial
    · exact hrefused _
    cases hspend : spendHash env.toAuthEnv (codeText env code) user.mfaRecoveryCodeHashes with
    | none =>
      simp only [hspend, ofExcept_ok, bind_def, ret_bind]
      exact hrefused _
    | some hashes =>
      simp only [hspend, ofExcept_ok, bind_def, ret_bind]
      refine ⟨⟨rfl, code, user.mfaRecoveryCodeHashes, rfl, rfl, hspend⟩, ?_⟩
      rintro (e | u) φ ⟨-, rfl⟩
      · trivial
      · exact ⟨fun _ => rfl, fun h => by cases h⟩

def codePhases (env : RecoveryEnv) (plainOf : String → Option String) (userId : String) :
    (recoveryServer env plainOf userId).Phased CodePhase where
  start := fun _ => .idle
  advance := fun q => CodePhase.advance env q
  fits := fun _ _ => True
  permits := CodePhase.Permits env userId
  returns := CodePhase.Returns
  sound := fun _ _ _ _ _ _ _ => trivial
  holds := by
    intro q
    cases q with
    | consume code => exact consumeCode_wp code
    | regenerate password => exact regenerateRecoveryCodes_wp password
    | enable code req => exact enableAdminTotp_wp code req
    | disable password => exact disableAdminTotp_wp password

end Phases

end CloudVM.Recovery
