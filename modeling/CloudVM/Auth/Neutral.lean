import CloudVM.Auth.Store
import CloudVM.Framework.Logic

/-!
# Steps that leave the refresh tokens alone

Most of what the service does around a session (lockout, captcha, anomaly score, challenges,
audit) touches neither `refresh_tokens` nor the markers of used tokens, and creates no account.
-/

namespace CloudVM

/-- A call that neither reads nor edits refresh tokens, their markers or the set of users. -/
def AuthCall.Neutral : AuthCall → Prop
  | .createRefreshToken _ _ _ => False
  | .findRefreshToken _ => False
  | .deleteTokensOf _ => False
  | .deleteTokenRow _ => False
  | .deleteToken _ => False
  | .createUser _ => False
  | .redisSet key _ _ => ∀ jti, key ≠ .refreshUsed jti
  | .redisIncr key => ∀ jti, key ≠ .refreshUsed jti
  | _ => True

/-- A neutral call that pushes no row to the user service either. -/
def AuthCall.Apart : AuthCall → Prop
  | .syncUserProjection _ => False
  | c => c.Neutral

theorem AuthCall.Apart.isNeutral {c : AuthCall} (h : c.Apart) : c.Neutral := by
  cases c <;> first | exact h.elim | exact h

namespace AuthService

open AuthCall

/-- A process of neutral calls only. -/
abbrev IsNeutral {α : Type} (p : AuthProcess α) : Prop := p.Only Neutral

abbrev IsApart {α : Type} (p : AuthProcess α) : Prop := p.Only Apart

theorem IsApart.neutral {α : Type} {p : AuthProcess α} (h : IsApart p) : IsNeutral p :=
  h.mono fun _ hc => hc.isNeutral

variable (env : AuthEnv)

section Calls

theorem apart_now : IsApart now := ⟨trivial, fun _ => trivial⟩

theorem apart_randomUUID : IsApart randomUUID := ⟨trivial, fun _ => trivial⟩

theorem apart_bcryptHash (text : String) :
    IsApart (.call (.bcryptHash text) .ret : AuthProcess String) := ⟨trivial, fun _ => trivial⟩

theorem apart_generateMfaCode : IsApart (.call .generateMfaCode .ret : AuthProcess String) :=
  ⟨trivial, fun _ => trivial⟩

theorem apart_ensureRedisConnected : IsApart ensureRedisConnected :=
  Process.only_request trivial

theorem apart_redisGet (key : RedisKey) : IsApart (redisGet key) :=
  Process.only_request trivial

theorem apart_redisSet {key : RedisKey} (h : ∀ jti, key ≠ .refreshUsed jti) (v : RedisValue)
    (ttl : Nat) : IsApart (redisSet key v ttl) := Process.only_request h

theorem apart_redisDel (keys : List RedisKey) : IsApart (redisDel keys) :=
  Process.only_request trivial

theorem apart_redisIncr {key : RedisKey} (h : ∀ jti, key ≠ .refreshUsed jti) :
    IsApart (redisIncr key) := Process.only_request h

theorem apart_redisExpire (key : RedisKey) (ttl : Nat) : IsApart (redisExpire key ttl) :=
  Process.only_request trivial

theorem apart_findUserByEmail (email : String) : IsApart (findUserByEmail email) :=
  Process.only_request trivial

theorem apart_findUserById (userId : String) : IsApart (findUserById userId) :=
  Process.only_request trivial

theorem apart_bestEffort {p : AuthProcess Unit} (h : IsApart p) : IsApart (bestEffort p) :=
  Process.only_tryCatch h fun _ => Process.only_pure ()

theorem neutral_syncUserProjection (user : AuthUser) : IsNeutral (syncUserProjection user) :=
  Process.only_tryCatch (Process.only_request trivial) fun _ => Process.only_pure ()

theorem apart_logMfaAudit (userId action : String) : IsApart (logMfaAudit userId action) :=
  apart_bestEffort (Process.only_request trivial)

end Calls

theorem apart_storeLoginContext (userId : String) (req : RequestInfo) :
    IsApart (storeLoginContext env userId req) := by
  apply Process.only_bind apart_now
  intro t
  apply apart_bestEffort
  apply Process.only_bind apart_ensureRedisConnected
  intro _
  apply apart_redisSet
  simp

section Lockout

theorem apart_assertNotLocked (email : String) : IsApart (assertNotLocked env email) := by
  apply Process.only_bind apart_ensureRedisConnected
  intro _
  apply Process.only_bind (Process.only_request trivial)
  intro ttl
  split <;> trivial

theorem apart_expireFirst (attempts : Nat) (key : RedisKey) (ttl : Nat) :
    IsApart (expireFirst attempts key ttl) := by
  unfold expireFirst
  split
  · exact apart_redisExpire _ _
  · trivial

theorem apart_registerFailedLogin (email : String) :
    IsApart (registerFailedLogin env email) := by
  have hlock : IsApart (lockAccount env email) := by
    apply Process.only_bind (apart_redisIncr (by simp))
    intro streak
    apply Process.only_bind (apart_redisExpire _ _)
    intro _
    apply Process.only_bind (apart_redisSet (by simp) _ _)
    intro _
    exact Process.only_throw _
  apply Process.only_bind apart_ensureRedisConnected
  intro _
  apply Process.only_bind (apart_redisIncr (by simp))
  intro attempts
  apply Process.only_bind (apart_expireFirst _ _ _)
  intro _
  split
  · exact hlock
  · trivial

theorem apart_refuseLogin {α : Type} (email message : String) :
    IsApart (refuseLogin env email message : AuthProcess α) :=
  Process.only_bind (apart_registerFailedLogin env email) fun _ => Process.only_throw _

theorem apart_isCaptchaRequired (email : String) : IsApart (isCaptchaRequired env email) := by
  by_cases h : env.captchaEnabled
  · simp only [isCaptchaRequired, h, Bool.not_true, Bool.false_eq_true, if_false]
    apply Process.only_bind apart_ensureRedisConnected
    intro _
    apply Process.only_bind (apart_redisGet _)
    intro v
    split <;> trivial
  · simp [isCaptchaRequired, h]

theorem apart_assertCaptchaIfNeeded (email : String) (token : Option String) :
    IsApart (assertCaptchaIfNeeded env email token) := by
  apply Process.only_bind (apart_isCaptchaRequired env email)
  intro required
  cases required with
  | false => trivial
  | true =>
    simp only [if_true]
    split
    · trivial
    · split <;> trivial

theorem apart_clearFailedLogins (email : String) : IsApart (clearFailedLogins env email) :=
  Process.only_bind apart_ensureRedisConnected fun _ => apart_redisDel _

theorem apart_evaluateLoginAnomaly (userId : String) (req : RequestInfo) :
    IsApart (evaluateLoginAnomaly env userId req) := by
  have hprevious : IsApart (getPreviousLoginContext userId) := by
    apply Process.only_bind apart_ensureRedisConnected
    intro _
    apply Process.only_bind (apart_redisGet _)
    intro v
    split
    · split <;> trivial
    · trivial
  apply Process.only_bind hprevious
  intro previous
  cases previous with
  | none => trivial
  | some previous => exact Process.only_bind apart_now fun _ => Process.only_pure _

theorem neutral_afterPassword (email : String) (user : AuthUser) (req : RequestInfo) :
    IsNeutral (afterPassword env email user req) := by
  apply Process.only_bind (apart_clearFailedLogins env email).neutral
  intro _
  apply Process.only_bind (neutral_syncUserProjection user)
  intro _
  apply Process.only_bind (apart_evaluateLoginAnomaly env user.id req).neutral
  intro detected
  split <;> trivial

end Lockout

section SecondFactor

theorem apart_storeChallenge (payload : MfaChallengePayload) :
    IsApart (storeChallenge env payload) := by
  apply Process.only_bind apart_ensureRedisConnected
  intro _
  apply Process.only_bind apart_randomUUID
  intro challengeId
  apply Process.only_bind (apart_redisSet (by simp) _ _)
  intro _
  exact Process.only_pure _

theorem apart_consumeRecoveryCode (userId code : String) :
    IsApart (consumeRecoveryCode env userId code) := by
  simp only [consumeRecoveryCode]
  split
  · trivial
  · apply Process.only_bind (apart_findUserById _)
    intro found
    cases found with
    | none => trivial
    | some user =>
      simp only
      split
      · trivial
      · exact Process.only_bind (Process.only_request trivial) fun _ => Process.only_pure _

theorem apart_checkCode (payload : MfaChallengePayload) (user : AuthUser) (code : String) :
    IsApart (checkCode env payload user code) := by
  unfold checkCode
  split
  · apply Process.only_bind apart_now
    intro t
    split
    · trivial
    · apply Process.only_bind (apart_consumeRecoveryCode env _ _)
      intro consumed
      split
      · exact Process.only_bind (apart_logMfaAudit _ _) fun _ => Process.only_pure _
      · trivial
  · trivial

theorem apart_rejectCode (challengeId : String) : IsApart (rejectCode env challengeId) := by
  apply Process.only_bind (apart_redisIncr (by simp))
  intro attempts
  apply Process.only_bind (apart_expireFirst _ _ _)
  intro _
  split
  · exact Process.only_bind (apart_redisDel _) fun _ => Process.only_throw _
  · trivial

end SecondFactor

end AuthService

end CloudVM
