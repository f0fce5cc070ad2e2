import CloudVM.Access.Fingerprint
import CloudVM.Framework.Process
import CloudVM.Limits.Rules

/-!
# The limiters of the gateway

`RedisRateLimitMiddleware.use`, `RedisThrottlerStorage.increment` and `checkTerminalWsRateLimit`,
as processes over the commands they send to Redis.
-/

namespace CloudVM.Limits

open Access Text

section Calls

/-- Times are seconds for `EXPIRE` and `TTL`, milliseconds for `PEXPIRE` and `PTTL`. -/
inductive GatewayCall where
  | connect
  | incr (key : String)
  | expire (key : String) (seconds : ℕ)
  | pexpire (key : String) (milliseconds : ℕ)
  | ttl (key : String)
  | pttl (key : String)
deriving DecidableEq, Repr

@[reducible] def GatewayCall.Answer : GatewayCall → Type
  | .connect => Except Failure Unit
  | .incr _ => Except Failure ℕ
  | .expire _ _ => Except Failure Unit
  | .pexpire _ _ => Except Failure Unit
  | .ttl _ => Except Failure ℤ
  | .pttl _ => Except Failure ℤ

@[reducible] def gatewayInterface : Interface where
  Call := GatewayCall
  Answer := GatewayCall.Answer

abbrev GatewayProcess (α : Type) := Process gatewayInterface Failure α

def connect : GatewayProcess Unit := .call .connect .ofExcept

def incr (key : String) : GatewayProcess ℕ := .call (.incr key) .ofExcept

def expire (key : String) (seconds : ℕ) : GatewayProcess Unit :=
  .call (.expire key seconds) .ofExcept

def pexpire (key : String) (milliseconds : ℕ) : GatewayProcess Unit :=
  .call (.pexpire key milliseconds) .ofExcept

def ttl (key : String) : GatewayProcess ℤ := .call (.ttl key) .ofExcept

def pttl (key : String) : GatewayProcess ℤ := .call (.pttl key) .ofExcept

end Calls

/-- `RATELIMIT_FAIL_BEHAVIOR`, `WS_RATELIMIT_FAIL_BEHAVIOR` with its default, and the limits of the
terminal's handshakes. -/
structure GatewayEnv where
  failOpen : Bool := true
  wsFailOpen : Bool := false
  terminalWsRateLimit : ℕ := 30
  terminalWsRateWindowSeconds : ℕ := 60

/-- What the middleware reads of a request. -/
structure HttpRequest where
  method : String
  path : String
  ip : Option String
  remoteAddress : Option String
deriving DecidableEq, Repr

inductive LimitReply where
  | next
  | tooManyRequests (retryAfter : ℤ)
  | unavailable
  | hits (totalHits : ℕ) (timeToExpire : ℤ) (isBlocked : Bool) (timeToBlockExpire : ℤ)
  | terminal (allowed : Bool) (retryAfterSeconds : Option ℤ) (ip : String)
deriving DecidableEq, Repr

variable (env : GatewayEnv)

def getClientIp (req : HttpRequest) : String :=
  replace (((truthy req.ip).or (truthy req.remoteAddress)).getD "unknown") "::ffff:" ""

def rateLimitKey (name ip : String) : String := s!"security:gateway:ratelimit:{name}:{ip}"

/-- The count of a key, whose first increment starts its window. -/
def countHit (key : String) (window : GatewayProcess Unit) : GatewayProcess ℕ := do
  let currentHits ← incr key
  if currentHits = 1 then
    window
    pure currentHits
  else pure currentHits

/-- `RedisRateLimitMiddleware.use`. -/
def use (req : HttpRequest) : GatewayProcess LimitReply :=
  match resolveRule req.method req.path with
  | none => pure .next
  | some rule =>
    let key := rateLimitKey rule.name (getClientIp req)
    tryCatch (do
      connect
      let currentHits ← countHit key (expire key rule.windowSeconds)
      if rule.limit < currentHits then
        let left ← ttl key
        pure (.tooManyRequests (max 1 left))
      else pure .next)
      fun _ => if env.failOpen then pure .next else pure .unavailable

/-- `RedisThrottlerStorage.increment`. -/
def increment (key : String) (ttl limit : ℕ) : GatewayProcess LimitReply :=
  let fullKey := s!"security:gateway:throttler:{key}"
  tryCatch (do
    connect
    let totalHits ← countHit fullKey (pexpire fullKey ttl)
    let left ← pttl fullKey
    let timeToExpire := max 0 left
    let isBlocked := decide (limit < totalHits)
    pure (.hits totalHits timeToExpire isBlocked (if isBlocked then timeToExpire else 0)))
    fun _ => pure (.hits 0 0 false 0)

def extractClientIpFromHeaders (realIp : Option HeaderValue) : String :=
  match firstHeaderValue realIp with
  | some ip => replace ip "::ffff:" ""
  | none => "unknown"

def checkTerminalWsRateLimit (realIp : Option HeaderValue) : GatewayProcess LimitReply :=
  let ip := extractClientIpFromHeaders realIp
  if ip = "unknown" then pure (.terminal true none ip)
  else
    let key := rateLimitKey "ws-terminal" ip
    tryCatch (do
      let currentHits ← countHit key (expire key env.terminalWsRateWindowSeconds)
      if env.terminalWsRateLimit < currentHits then
        let left ← ttl key
        pure (.terminal false (some (max 1 left)) ip)
      else pure (.terminal true none ip))
      fun _ => pure (.terminal env.wsFailOpen none ip)

end CloudVM.Limits
