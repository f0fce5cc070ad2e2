import CloudVM.Auth.Model

/-!
# The auth service

`register`, `login`, `findOrCreateGoogleUser`, `verifyAdminMfa`, `refreshTokens`, `logout`,
`logoutAllSessions` and `generateWsTicket`, as processes. One reading of the clock serves the `exp` of a refresh token
and the `expiresAt` of its row.
-/

namespace CloudVM.AuthService

open Text

section Calls

def now : AuthProcess Nat := .call .now .ret

def randomUUID : AuthProcess String := .call .randomUUID .ret

def ensureRedisConnected : AuthProcess Unit := .call .redisConnect .ofExcept

def redisGet (key : RedisKey) : AuthProcess (Option RedisValue) := .call (.redisGet key) .ofExcept

def redisSet (key : RedisKey) (value : RedisValue) (ttl : Nat) : AuthProcess Unit :=
  .call (.redisSet key value ttl) .ofExcept

def redisDel (keys : List RedisKey) : AuthProcess Unit := .call (.redisDel keys) .ofExcept

def redisIncr (key : RedisKey) : AuthProcess Nat := .call (.redisIncr key) .ofExcept

def redisExpire (key : RedisKey) (ttl : Nat) : AuthProcess Unit :=
  .call (.redisExpire key ttl) .ofExcept

def findUserByEmail (email : String) : AuthProcess (Option AuthUser) :=
  .call (.findUserByEmail email) .ofExcept

def findUserById (userId : String) : AuthProcess (Option AuthUser) :=
  .call (.findUserById userId) .ofExcept

def deleteTokensOf (userId : String) : AuthProcess Unit := .call (.deleteTokensOf userId) .ofExcept

def deleteTokenRow (rowId : String) : AuthProcess Unit := .call (.deleteTokenRow rowId) .ofExcept

def bestEffort (p : AuthProcess Unit) : AuthProcess Unit := tryCatch p fun _ => pure ()

def syncUserProjection (user : AuthUser) : AuthProcess Unit :=
  bestEffort (.call (.syncUserProjection user) .ofExcept)

def logMfaAudit (userId action : String) : AuthProcess Unit :=
  bestEffort (.call (.logMfaAudit userId action) .ofExcept)

end Calls

variable (env : AuthEnv)

section Tokens

def generateTokens (user : AuthUser) (req : RequestInfo) : AuthProcess TokenPair := do
  let jti ← randomUUID
  let t ← now
  let exp := t + env.refreshTtlSeconds
  let refreshToken : RefreshPayload := { sub := user.id, jti, exp }
  .call (.createRefreshToken refreshToken user.id exp) .ofExcept
  pure
    { accessToken := { sub := user.id, email := user.email, role := user.role, fp := req.fingerprint }
      refreshToken }

def storeLoginContext (userId : String) (req : RequestInfo) : AuthProcess Unit := do
  let t ← now
  bestEffort do
    ensureRedisConnected
    redisSet (.loginContext userId)
      (.context ⟨req.fingerprint, req.ip, req.userAgent, t⟩) env.loginContextTtlSeconds

/-- `generateTokens` and `storeLoginContext`, the end of every way to sign in. -/
def openSession (user : AuthUser) (req : RequestInfo) (rememberMe : Option Bool) :
    AuthProcess AuthReply := do
  let pair ← generateTokens env user req
  storeLoginContext env user.id req
  pure (.tokens pair rememberMe)

end Tokens

section Lockout

private def minutes (seconds : Nat) : Nat := (seconds + 59) / 60

def assertNotLocked (email : String) : AuthProcess Unit := do
  ensureRedisConnected
  let ttl ← .call (.redisTtl (.lock (env.lower email))) .ofExcept
  if 0 < ttl then
    let m := minutes ttl.toNat
    throw ⟨.tooManyRequests, s!"Too many failed login attempts. Try again in {m} minute(s)."⟩
  else pure ()

/-- `Math.round(window * multiplier ** max(0, streak - 1))`, capped. -/
def progressiveSeconds (streak : Nat) : Nat :=
  min env.lockMaxSeconds
    (((env.lockWindowSeconds : Rat) * env.lockProgressiveMultiplier ^ (streak - 1) + 1 / 2).floor.toNat)

/-- The counter gets its time to live with its first increment. -/
def expireFirst (attempts : Nat) (key : RedisKey) (ttl : Nat) : AuthProcess Unit :=
  if attempts = 1 then redisExpire key ttl else pure ()

def lockAccount (email : String) : AuthProcess Unit := do
  let streak ← redisIncr (.lockStreak (env.lower email))
  redisExpire (.lockStreak (env.lower email)) 86400
  redisSet (.lock (env.lower email)) .one (progressiveSeconds env streak)
  let m := minutes (progressiveSeconds env streak)
  throw ⟨.tooManyRequests, s!"Too many failed login attempts. Try again in {m} minute(s)."⟩

def registerFailedLogin (email : String) : AuthProcess Unit := do
  ensureRedisConnected
  let attempts ← redisIncr (.fail (env.lower email))
  expireFirst attempts (.fail (env.lower email)) env.lockWindowSeconds
  if attempts ≥ env.maxFailedAttempts then lockAccount env email else pure ()

def isCaptchaRequired (email : String) : AuthProcess Bool := do
  if !env.captchaEnabled then pure false
  else
    ensureRedisConnected
    match ← redisGet (.fail (env.lower email)) with
    | some (.counter n) => pure (env.captchaFailThreshold ≤ n)
    | _ => pure (env.captchaFailThreshold ≤ 0)

def assertCaptchaIfNeeded (email : String) (captchaToken : Option String) : AuthProcess Unit := do
  if ← isCaptchaRequired env email then
    let token := jsTrim (captchaToken.getD "")
    if token = "" then throw ⟨.forbidden, "CAPTCHA verification required"⟩
    else if env.captchaSharedSecret ≠ "" ∧ token ≠ env.captchaSharedSecret then
      throw ⟨.forbidden, "CAPTCHA verification failed"⟩
    else pure ()
  else pure ()

def clearFailedLogins (email : String) : AuthProcess Unit := do
  ensureRedisConnected
  redisDel [.fail (env.lower email), .lock (env.lower email)]

/-- `registerFailedLogin`, and the refusal unless that has locked the account. -/
def refuseLogin {α : Type} (email message : String) : AuthProcess α := do
  registerFailedLogin env email
  throw ⟨.unauthorized, message⟩

end Lockout

section Anomaly

def getPreviousLoginContext (userId : String) : AuthProcess (Option LoginContextPayload) := do
  ensureRedisConnected
  match ← redisGet (.loginContext userId) with
  | some (.context p) =>
    if p.fingerprint = "" ∨ p.ip = "" ∨ p.userAgent = "" then pure none else pure (some p)
  | _ => pure none

def anomalyScore (previous : LoginContextPayload) (req : RequestInfo) (t : Nat) : Nat :=
  (if req.fingerprint ≠ previous.fingerprint then 70 else 0) +
  (if req.ip ≠ previous.ip then 25 else 0) +
  (if req.userAgent ≠ previous.userAgent then 15 else 0) +
  (if t - previous.lastSeenAt > 30 * 86400 then 10 else 0)

def evaluateLoginAnomaly (userId : String) (req : RequestInfo) : AuthProcess Bool := do
  match ← getPreviousLoginContext userId with
  | none => pure false
  | some previous =>
    let t ← now
    pure (env.anomalyRiskThreshold ≤ anomalyScore previous req t)

end Anomaly

section SignIn

def register (dto : RegisterDto) (req : RequestInfo) : AuthProcess AuthReply := do
  match ← findUserByEmail dto.email with
  | some _ => throw ⟨.conflict, "Email already in use"⟩
  | none =>
    let hashedPassword ← .call (.bcryptHash dto.password) .ret
    let user ← .call (.createUser
      { email := dto.email, password := hashedPassword, firstName := dto.firstName,
        lastName := dto.lastName }) .ofExcept
    syncUserProjection user
    openSession env user req none

/-- What `login` does between the password check and the second factor. -/
def afterPassword (email : String) (user : AuthUser) (req : RequestInfo) : AuthProcess AuthUser := do
  clearFailedLogins env email
  syncUserProjection user
  let detected ← evaluateLoginAnomaly env user.id req
  if detected && env.anomalyBlocks then
    throw ⟨.forbidden,
      "Suspicious login detected. Please retry from a trusted network or contact support."⟩
  else pure user

/-- The checks of `login` up to the second factor. -/
def authenticate (dto : LoginDto) (req : RequestInfo) : AuthProcess AuthUser := do
  assertNotLocked env dto.email
  assertCaptchaIfNeeded env dto.email dto.captchaToken
  match ← findUserByEmail dto.email with
  | none => refuseLogin env dto.email "Invalid credentials"
  | some user =>
    if !env.bcryptCompare dto.password user.password then
      refuseLogin env dto.email "Invalid credentials"
    else if !user.isActive then refuseLogin env dto.email "Account is deactivated"
    else afterPassword env dto.email user req

def storeChallenge (payload : MfaChallengePayload) : AuthProcess String := do
  ensureRedisConnected
  let challengeId ← randomUUID
  redisSet (.mfaChallenge challengeId) (.challenge payload) env.mfaTtlSeconds
  pure challengeId

/-- `isMfaEnabled && userMfaSecret`. -/
def hasTotp (user : AuthUser) : Bool :=
  user.mfaEnabled && (user.mfaSecret.filter fun s => s ≠ "").isSome

def login (dto : LoginDto) (req : RequestInfo) : AuthProcess AuthReply := do
  let user ← authenticate env dto req
  if hasTotp user then
    let challengeId ← storeChallenge env
      { userId := user.id, email := user.email, fingerprint := req.fingerprint,
        rememberMe := dto.rememberMe, mode := .totp }
    pure (.mfaRequired challengeId "MFA verification required" none)
  else if env.adminMfaEnabled && user.role = .admin then
    if !env.mfaTempBootstrapEnabled then
      pure (.mfaEnrollmentRequired <|
        "Admin MFA is required but not configured. Sign in once via a bootstrap flow and " ++
        "complete /auth/mfa/setup.")
    else
      let code ← .call .generateMfaCode .ret
      let challengeId ← storeChallenge env
        { userId := user.id, email := user.email, fingerprint := req.fingerprint,
          rememberMe := dto.rememberMe, mode := .temporary, code := some code }
      pure (.mfaRequired challengeId "MFA verification required for admin account" (some code))
  else openSession env user req none

private def orElseText (a b : String) : String := if a = "" then b else a

/-- `user.create` for a new Google account. -/
def newGoogleUser (profile : GoogleProfile) (email hashedPassword : String) : NewUser :=
  let displayName := jsTrim (profile.displayName.getD "")
  let givenName := jsTrim (profile.givenName.getD "")
  let familyName := jsTrim (profile.familyName.getD "")
  let words := displayName.toList.splitOn ' '
  let first := String.ofList (words.headD [])
  let rest := String.intercalate " " ((words.drop 1).map String.ofList)
  { email, googleId := some profile.id, password := hashedPassword
    firstName := orElseText givenName (orElseText first "Google")
    lastName := orElseText familyName (orElseText rest "User") }

def googleSession (user : AuthUser) (profile : GoogleProfile) (req : RequestInfo) :
    AuthProcess AuthReply := do
  if !user.isActive then pure (.googleError "account_inactive" "Account is deactivated")
  else
    let user ←
      if user.googleId = some profile.id ∧ profile.id ≠ "" then pure user
      else .call (.setGoogleId user.id profile.id) .ofExcept
    syncUserProjection user
    openSession env user req none

def findOrCreateGoogleUser (profile : GoogleProfile) (req : RequestInfo) : AuthProcess AuthReply :=
  match (profile.email.map fun e => env.lower (jsTrim e)).filter fun e => e ≠ "" with
  | none => pure (.googleError "google_email_missing" "Google profile is missing an email address")
  | some email => do
    match ← findUserByEmail email with
    | some user => googleSession env user profile req
    | none =>
      let intent := env.lower (orElseText (req.googleIntent.getD "") "login")
      if intent ≠ "register" then pure (.googleError "account_not_found" "Account does not exist")
      else
        let randomPassword ← randomUUID
        let hashedPassword ← .call (.bcryptHash randomPassword) .ret
        let user ← .call (.createUser (newGoogleUser profile email hashedPassword)) .ofExcept
        googleSession env user profile req

end SignIn

section SecondFactor

def normalizeRecoveryCode (input : String) : String :=
  env.upper (String.ofList (input.toList.filter Char.isAlphanum))

/-- The first hash that the code matches is taken out. -/
def spendHash (code : String) (hashes : List String) : Option (List String) :=
  match hashes.findIdx? fun h => env.bcryptCompare code h with
  | none => none
  | some i => some (hashes.eraseIdx i)

def consumeRecoveryCode (userId code : String) : AuthProcess Bool := do
  let normalized := normalizeRecoveryCode env code
  if normalized.toList.length < 8 then pure false
  else
    match ← findUserById userId with
    | none => pure false
    | some user =>
      match spendHash env normalized user.mfaRecoveryCodeHashes with
      | none => pure false
      | some hashes =>
        .call (.setRecoveryHashes userId hashes) .ofExcept
        pure true

/-- Whether the code is accepted for the challenge. -/
def checkCode (payload : MfaChallengePayload) (user : AuthUser) (code : String) : AuthProcess Bool :=
  match payload.mode with
  | .totp => do
    let t ← now
    if (user.mfaSecret.filter fun s => s ≠ "").any fun s => env.verifyTotpCode s code t then pure true
    else
      let consumed ← consumeRecoveryCode env payload.userId code
      if consumed then
        logMfaAudit payload.userId "recovery_code_used"
        pure true
      else pure false
  | .temporary => pure ((payload.code.filter fun c => c ≠ "") = some code)

def rejectCode (challengeId : String) : AuthProcess AuthReply := do
  let attempts ← redisIncr (.mfaAttempts challengeId)
  expireFirst attempts (.mfaAttempts challengeId) env.mfaTtlSeconds
  if attempts ≥ env.mfaMaxAttempts then
    redisDel [.mfaChallenge challengeId, .mfaAttempts challengeId]
    throw ⟨.tooManyRequests, "Too many failed MFA attempts. Start login again."⟩
  else throw ⟨.unauthorized, "Invalid MFA code"⟩

def verifyAdminMfa (challengeId code : String) (req : RequestInfo) : AuthProcess AuthReply := do
  ensureRedisConnected
  match ← redisGet (.mfaChallenge challengeId) with
  | some (.challenge payload) =>
    if payload.fingerprint ≠ req.fingerprint then
      redisDel [.mfaChallenge challengeId, .mfaAttempts challengeId]
      throw ⟨.unauthorized, "MFA challenge fingerprint mismatch"⟩
    else
      match ← findUserById payload.userId with
      | none => throw ⟨.unauthorized, "User not found or inactive"⟩
      | some user =>
        if !user.isActive then throw ⟨.unauthorized, "User not found or inactive"⟩
        else
          let isValidCode ← checkCode env payload user code
          if isValidCode then
            redisDel [.mfaChallenge challengeId, .mfaAttempts challengeId]
            openSession env user req (some payload.rememberMe)
          else rejectCode env challengeId
  | _ => throw ⟨.unauthorized, "MFA challenge expired or invalid"⟩

end SecondFactor

section Refresh

/-- `jwtService.verify` at a time: signed by the service, not expired, with the two claims. -/
def verify (token : Bearer) (t : Nat) : Option RefreshPayload :=
  match token with
  | .signed p => if t < p.exp ∧ p.sub ≠ "" ∧ p.jti ≠ "" then some p else none
  | .other _ => none

/-- The answer to a token that was used before: every session of its user ends. -/
def reuseDetected (sub : String) : AuthProcess AuthReply := do
  deleteTokensOf sub
  throw ⟨.unauthorized, "Refresh token reuse detected. All sessions revoked."⟩

/-- The end of `refreshTokens`: the row goes, the marker is set, a new pair is issued. -/
def spend (decoded : RefreshPayload) (row : RefreshRow) (user : AuthUser) (req : RequestInfo) :
    AuthProcess AuthReply := do
  deleteTokenRow row.id
  let t ← now
  redisSet (.refreshUsed decoded.jti) .one (max 1 (decoded.exp - t))
  let pair ← generateTokens env user req
  pure (.tokens pair none)

/-- `refreshTokens` with the row it found. -/
def rotate (decoded : RefreshPayload) (row : RefreshRow) (user : AuthUser) (req : RequestInfo) :
    AuthProcess AuthReply := do
  let t ← now
  if row.expiresAt < t then
    deleteTokenRow row.id
    throw ⟨.unauthorized, "Refresh token expired"⟩
  else spend env decoded row user req

def refreshTokens (token : Bearer) (req : RequestInfo) : AuthProcess AuthReply := do
  let t ← now
  match verify token t with
  | none => throw ⟨.unauthorized, "Invalid refresh token"⟩
  | some decoded =>
    ensureRedisConnected
    let wasUsed ← redisGet (.refreshUsed decoded.jti)
    if wasUsed.isSome then reuseDetected decoded.sub
    else
      let stored ← .call (.findRefreshToken token) .ofExcept
      match stored with
      | none => reuseDetected decoded.sub
      | some (row, user) => rotate env decoded row user req

def logout (token : Bearer) : AuthProcess AuthReply := do
  if token = .other "" then pure (.message "Logged out successfully")
  else
    bestEffort (.call (.deleteToken token) .ofExcept)
    pure (.message "Logged out successfully")

def logoutAllSessions (userId : String) : AuthProcess AuthReply := do
  deleteTokensOf userId
  pure (.message "Logged out from all sessions")

def generateWsTicket (userId : String) (req : RequestInfo) : AuthProcess WsTicket := do
  match ← findUserById userId with
  | none => throw ⟨.notFound, "User not found"⟩
  | some user =>
    if !user.isActive then throw ⟨.unauthorized, "User is inactive"⟩
    else pure { sub := userId, email := user.email, role := user.role, fp := req.fingerprint }

end Refresh

end CloudVM.AuthService

namespace CloudVM

/-- What a client can ask of the service. -/
inductive AuthRequest where
  | register (dto : RegisterDto)
  | login (dto : LoginDto)
  | google (profile : GoogleProfile)
  | verifyAdminMfa (challengeId code : String)
  | refresh (token : Bearer)
  | logout (token : Bearer)
  | logoutAll (userId : String)
deriving DecidableEq, Repr

open AuthService in
/-- The handler of a request with what it carries along. -/
def AuthRequest.handle (env : AuthEnv) (q : AuthRequest × RequestInfo) : AuthProcess AuthReply :=
  match q.1 with
  | .register dto => AuthService.register env dto q.2
  | .login dto => AuthService.login env dto q.2
  | .google profile => findOrCreateGoogleUser env profile q.2
  | .verifyAdminMfa challengeId code => AuthService.verifyAdminMfa env challengeId code q.2
  | .refresh token => refreshTokens env token q.2
  | .logout token => AuthService.logout token
  | .logoutAll userId => logoutAllSessions userId

end CloudVM
