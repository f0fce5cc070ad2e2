import CloudVM.Common
import CloudVM.Framework.Process
import CloudVM.Framework.Table
import CloudVM.Framework.Text
import Mathlib.Data.Rat.Floor

/-!
# Data and calls of the auth service

Users, refresh tokens, the entries kept in Redis, and everything the service asks of Postgres,
Redis, the clock and the random sources. Times are seconds. A signed refresh token is identified
with its payload: signing is deterministic, and only the service can sign.
-/

namespace CloudVM

structure AuthUser where
  id : String
  email : String
  googleId : Option String := none
  password : String
  firstName : String
  lastName : String
  role : Role := .user
  isActive : Bool := true
  mfaEnabled : Bool := false
  mfaSecret : Option String := none
  mfaRecoveryCodeHashes : List String := []
deriving DecidableEq, Repr

theorem AuthUser.id_with_hashes (hashes : List String) (u : AuthUser) :
    ({ u with mfaRecoveryCodeHashes := hashes } : AuthUser).id = u.id := rfl

/-- What a refresh token is signed over. -/
structure RefreshPayload where
  sub : String
  jti : String
  exp : Nat
deriving DecidableEq, Repr

/-- A refresh token as presented: one signed by the service, or any other text. -/
inductive Bearer where
  | signed (payload : RefreshPayload)
  | other (text : String)
deriving DecidableEq, Repr

/-- A row of `refresh_tokens`. -/
structure RefreshRow where
  id : String
  token : RefreshPayload
  userId : String
  expiresAt : Nat
deriving DecidableEq, Repr

structure AccessPayload where
  sub : String
  email : String
  role : Role
  fp : String
deriving DecidableEq, Repr

structure TokenPair where
  accessToken : AccessPayload
  refreshToken : RefreshPayload
deriving DecidableEq, Repr

/-- What a ticket for the WebSocket handshake is signed over; it is good for 30 seconds. -/
structure WsTicket where
  sub : String
  email : String
  role : Role
  fp : String
deriving DecidableEq, Repr

/-- What the service takes from a request: `buildRequestFingerprint`, `getClientIp`,
`getUserAgent` and the `google_intent` cookie. -/
structure RequestInfo where
  fingerprint : String
  ip : String
  userAgent : String
  googleIntent : Option String := none
deriving DecidableEq, Repr

structure RegisterDto where
  email : String
  password : String
  firstName : String
  lastName : String
deriving DecidableEq, Repr

structure LoginDto where
  email : String
  password : String
  rememberMe : Bool := false
  captchaToken : Option String := none
deriving DecidableEq, Repr

/-- The parts of a Google profile the service reads. -/
structure GoogleProfile where
  id : String
  email : Option String
  displayName : Option String := none
  givenName : Option String := none
  familyName : Option String := none
deriving DecidableEq, Repr

inductive MfaMode where
  | temporary
  | totp
deriving DecidableEq, Repr

structure MfaChallengePayload where
  userId : String
  email : String
  fingerprint : String
  rememberMe : Bool
  mode : MfaMode
  code : Option String := none
deriving DecidableEq, Repr

structure LoginContextPayload where
  fingerprint : String
  ip : String
  userAgent : String
  lastSeenAt : Nat
deriving DecidableEq, Repr

/-- The keys of the service in Redis, by kind. -/
inductive RedisKey where
  | lock (email : String)
  | fail (email : String)
  | lockStreak (email : String)
  | refreshUsed (jti : String)
  | mfaChallenge (challengeId : String)
  | mfaAttempts (challengeId : String)
  | loginContext (userId : String)
deriving DecidableEq, Repr

inductive RedisValue where
  | one
  | counter (n : Nat)
  | challenge (p : MfaChallengePayload)
  | context (p : LoginContextPayload)
deriving DecidableEq, Repr

/-- `data` of `user.create`. -/
structure NewUser where
  email : String
  googleId : Option String := none
  password : String
  firstName : String
  lastName : String
deriving DecidableEq, Repr

/-- What an operation answers to its caller. -/
inductive AuthReply where
  | tokens (pair : TokenPair) (rememberMe : Option Bool)
  | mfaRequired (challengeId : String) (message : String) (devOtp : Option String)
  | mfaEnrollmentRequired (message : String)
  | googleError (code : String) (message : String)
  | message (text : String)
deriving DecidableEq, Repr

/-- Settings, and the functions of other libraries: `bcrypt.compare`, `verifyTotpCode` at a time,
and `toLowerCase`/`toUpperCase`. -/
structure AuthEnv where
  lockWindowSeconds : Nat := 900
  lockProgressiveMultiplier : Rat := 1
  lockMaxSeconds : Nat := 3600
  maxFailedAttempts : Nat := 5
  captchaEnabled : Bool := false
  captchaFailThreshold : Nat := 3
  captchaSharedSecret : String := ""
  adminMfaEnabled : Bool := true
  mfaTtlSeconds : Nat := 300
  mfaTempBootstrapEnabled : Bool := true
  mfaMaxAttempts : Nat := 5
  anomalyRiskThreshold : Nat := 70
  anomalyBlocks : Bool := false
  loginContextTtlSeconds : Nat := 7776000
  refreshTtlSeconds : Nat := 604800
  bcryptCompare : String → String → Bool
  verifyTotpCode : String → String → Nat → Bool
  lower : String → String
  upper : String → String

/-- The default settings, over stand-ins for the libraries that know one password and one code. -/
def AuthEnv.sample : AuthEnv where
  bcryptCompare := fun text hash => hash = "hash of " ++ text
  verifyTotpCode := fun secret code _ => secret = "S" && code = "287082"
  lower := fun text => text
  upper := fun text => text

inductive AuthCall where
  | now
  | randomUUID
  | generateMfaCode
  | bcryptHash (text : String)
  | redisConnect
  | redisGet (key : RedisKey)
  | redisTtl (key : RedisKey)
  | redisSet (key : RedisKey) (value : RedisValue) (ttl : Nat)
  | redisDel (keys : List RedisKey)
  | redisIncr (key : RedisKey)
  | redisExpire (key : RedisKey) (ttl : Nat)
  | findUserByEmail (email : String)
  | findUserById (userId : String)
  | createUser (data : NewUser)
  | setGoogleId (userId : String) (googleId : String)
  | setRecoveryHashes (userId : String) (hashes : List String)
  | createRefreshToken (token : RefreshPayload) (userId : String) (expiresAt : Nat)
  | findRefreshToken (token : Bearer)
  | deleteTokensOf (userId : String)
  | deleteTokenRow (rowId : String)
  | deleteToken (token : Bearer)
  | syncUserProjection (user : AuthUser)
  | logMfaAudit (userId action : String)

@[reducible] def AuthCall.Answer : AuthCall → Type
  | .now => Nat
  | .randomUUID => String
  | .generateMfaCode => String
  | .bcryptHash _ => String
  | .redisConnect => Except Failure Unit
  | .redisGet _ => Except Failure (Option RedisValue)
  | .redisTtl _ => Except Failure Int
  | .redisSet _ _ _ => Except Failure Unit
  | .redisDel _ => Except Failure Unit
  | .redisIncr _ => Except Failure Nat
  | .redisExpire _ _ => Except Failure Unit
  | .findUserByEmail _ => Except Failure (Option AuthUser)
  | .findUserById _ => Except Failure (Option AuthUser)
  | .createUser _ => Except Failure AuthUser
  | .setGoogleId _ _ => Except Failure AuthUser
  | .setRecoveryHashes _ _ => Except Failure Unit
  | .createRefreshToken _ _ _ => Except Failure Unit
  | .findRefreshToken _ => Except Failure (Option (RefreshRow × AuthUser))
  | .deleteTokensOf _ => Except Failure Unit
  | .deleteTokenRow _ => Except Failure Unit
  | .deleteToken _ => Except Failure Unit
  | .syncUserProjection _ => Except Failure Unit
  | .logMfaAudit _ _ => Except Failure Unit

@[reducible] def authInterface : Interface where
  Call := AuthCall
  Answer := AuthCall.Answer

abbrev AuthProcess (α : Type) := Process authInterface Failure α

end CloudVM
