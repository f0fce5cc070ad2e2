import CloudVM.Auth.Service
import CloudVM.Framework.Logic

/-!
# What a login shows of the second factor

An administrator without an authenticator app is asked for a code that the service has drawn. The
code is logged outside production only. Two runs of `login` that differ in nothing but the code
are compared by what they return.
-/

namespace CloudVM.DevOtp

open Process AuthService

section Runs

/-- Everything outside except the code: the answer to each call after the calls before it. -/
abbrev Answers := List AuthCall → (c : AuthCall) → c.Answer

/-- The outside with a value for `generateMfaCode`, and the calls so far. -/
def withCode (answers : Answers) (code : String) :
    (c : AuthCall) → List AuthCall → c.Answer × List AuthCall
  | .generateMfaCode, asked => (code, asked ++ [.generateMfaCode])
  | c, asked => (answers asked c, asked ++ [c])

/-- The line that `login` logs unless `NODE_ENV` is `production`. -/
def devLog (nodeEnv email : String) : AuthReply → Option String
  | .mfaRequired challengeId _ (some code) =>
    if nodeEnv ≠ "production" then
      some s!"[DEV MFA] admin={email} challengeId={challengeId} code={code}"
    else none
  | _ => none

variable (env : AuthEnv)

/-- `login` with the line it logs; the user found has the email that was asked for. -/
def loginLogged (nodeEnv : String) (dto : LoginDto) (req : RequestInfo) :
    AuthProcess (AuthReply × Option String) := do
  let reply ← login env dto req
  pure (reply, devLog nodeEnv dto.email reply)

/-- The user is an administrator who gets a temporary code. -/
def GetsTemporaryCode (user : AuthUser) : Prop :=
  hasTotp user = false ∧ env.adminMfaEnabled = true ∧ user.role = .admin ∧
    env.mfaTempBootstrapEnabled = true

/-- The run with this code goes through the branch of the temporary code and returns `told`. -/
def EndsWithCode (nodeEnv : String) (dto : LoginDto) (req : RequestInfo) (answers : Answers)
    (code : String) (told : AuthReply × Option String) : Prop :=
  (∃ user asked, (authenticate env dto req).exec (withCode answers code) [] = (.ok user, asked) ∧
    GetsTemporaryCode env user) ∧
  ∃ asked, (loginLogged env nodeEnv dto req).exec (withCode answers code) [] = (.ok told, asked)

def challengeIdOf : AuthReply → Option String
  | .mfaRequired challengeId _ _ => some challengeId
  | _ => none

end Runs

section Reply

variable {env : AuthEnv} {nodeEnv : String} {dto : LoginDto} {req : RequestInfo} {answers : Answers}
  {code : String} {told : AuthReply × Option String}

private theorem told_of_endsWithCode (h : EndsWithCode env nodeEnv dto req answers code told) :
    ∃ challengeId, told.1 =
        .mfaRequired challengeId "MFA verification required for admin account" (some code) ∧
      devLog nodeEnv dto.email told.1 = told.2 := by
  obtain ⟨⟨user, asked, hauth, htotp, hmfa, hrole, hboot⟩, asked', hrun⟩ := h
  have hbranch : (env.adminMfaEnabled && decide (user.role = .admin)) = true := by
    simp [hmfa, hrole]
  simp only [loginLogged, login, exec_bind, hauth, htotp, Bool.false_eq_true, if_false, hbranch,
    if_true, hboot, Bool.not_true, exec_call, exec_ret, withCode] at hrun
  generalize hstore : (storeChallenge env _).exec (withCode answers code) _ = stored at hrun
  obtain ⟨out, asked''⟩ := stored
  cases out with
  | error e => cases hrun
  | ok challengeId =>
    simp only [pure_def, exec_ret] at hrun
    obtain ⟨htold, -⟩ := Prod.mk.inj hrun
    obtain rfl := Except.ok.inj htold
    exact ⟨challengeId, rfl, rfl⟩

/-- In production the log shows no code, but two runs return the same only if they have drawn the
same code. -/
theorem replies_agree_iff {code' : String} {told' : AuthReply × Option String}
    (h : EndsWithCode env "production" dto req answers code told)
    (h' : EndsWithCode env "production" dto req answers code' told')
    (hid : challengeIdOf told.1 = challengeIdOf told'.1) :
    (told.1 = told'.1 ↔ code = code') ∧ told.2 = none ∧ told'.2 = none := by
  obtain ⟨challengeId, hreply, hlog⟩ := told_of_endsWithCode h
  obtain ⟨challengeId', hreply', hlog'⟩ := told_of_endsWithCode h'
  rw [hreply] at hid hlog
  rw [hreply'] at hid hlog'
  obtain rfl : challengeId = challengeId' := Option.some.inj hid
  refine ⟨?_, hlog.symm, hlog'.symm⟩
  rw [hreply, hreply']
  constructor
  · intro heq
    injection heq with _ _ hcode
    exact Option.some.inj hcode
  · intro heq
    rw [heq]

end Reply

section Sample

def sampleAdmin : AuthUser where
  id := "admin"
  email := "admin@example.com"
  password := "hash of secret"
  firstName := "Ada"
  lastName := "Admin"
  role := .admin

def sampleDto : LoginDto := { email := "admin@example.com", password := "secret" }

def sampleRequest : RequestInfo := { fingerprint := "fp", ip := "10.0.0.1", userAgent := "agent" }

/-- Nothing is stored in Redis, and one administrator in Postgres. -/
def sampleAnswers : Answers := fun _ c =>
  match c with
  | .now => (0 : Nat)
  | .randomUUID => "challenge"
  | .generateMfaCode => ""
  | .bcryptHash text => "hash of " ++ text
  | .redisConnect => .ok ()
  | .redisGet _ => .ok none
  | .redisTtl _ => .ok (-2)
  | .redisSet _ _ _ => .ok ()
  | .redisDel _ => .ok ()
  | .redisIncr _ => .ok 1
  | .redisExpire _ _ => .ok ()
  | .findUserByEmail email => .ok (if email = sampleAdmin.email then some sampleAdmin else none)
  | .findUserById _ => .ok none
  | .createUser _ => .error ⟨.conflict, ""⟩
  | .setGoogleId _ _ => .error ⟨.notFound, ""⟩
  | .setRecoveryHashes _ _ => .ok ()
  | .createRefreshToken _ _ _ => .ok ()
  | .findRefreshToken _ => .ok none
  | .deleteTokensOf _ => .ok ()
  | .deleteTokenRow _ => .ok ()
  | .deleteToken _ => .ok ()
  | .syncUserProjection _ => .ok ()
  | .logMfaAudit _ _ => .ok ()

private theorem sample_ends (code : String) :
    EndsWithCode .sample "production" sampleDto sampleRequest sampleAnswers code
      (.mfaRequired "challenge" "MFA verification required for admin account" (some code), none) :=
  ⟨⟨sampleAdmin, _, rfl, rfl, rfl, rfl, rfl⟩, _, rfl⟩

/-- The code is returned in production. -/
theorem production_reply_shows_code :
    ∃ told told', EndsWithCode .sample "production" sampleDto sampleRequest sampleAnswers "123456" told ∧
      EndsWithCode .sample "production" sampleDto sampleRequest sampleAnswers "654321" told' ∧
      challengeIdOf told.1 = challengeIdOf told'.1 ∧ told.1 ≠ told'.1 :=
  ⟨_, _, sample_ends "123456", sample_ends "654321", rfl, by decide⟩

theorem replies_agree_iff_sample :
    EndsWithCode .sample "production" sampleDto sampleRequest sampleAnswers "123456"
        (.mfaRequired "challenge" "MFA verification required for admin account" (some "123456"), none) ∧
      EndsWithCode .sample "production" sampleDto sampleRequest sampleAnswers "654321"
        (.mfaRequired "challenge" "MFA verification required for admin account" (some "654321"), none) ∧
      (AuthReply.mfaRequired "challenge" "MFA verification required for admin account" (some "123456") =
          .mfaRequired "challenge" "MFA verification required for admin account" (some "654321") ↔
        "123456" = "654321") :=
  ⟨sample_ends _, sample_ends _,
    (replies_agree_iff (sample_ends "123456") (sample_ends "654321") rfl).1⟩

end Sample

end CloudVM.DevOtp
