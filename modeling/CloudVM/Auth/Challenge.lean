import CloudVM.Auth.Service
import CloudVM.Framework.Phases

/-!
# Guesses for one challenge

Any number of calls of `verifyAdminMfa` are under way for one challenge, their Redis and database
steps in any order. An entry of Redis carries the time at which it expires, and any command may
fail, with its effect or without. A call is a guess from the moment it has read an active account:
the code is compared next. Where guesses for a challenge do not overlap, the counter bounds them
and one of them at most succeeds.
-/

namespace CloudVM

open Process AuthService

/-- The parts of the stores that `verifyAdminMfa` works on. -/
structure ChallengeStore where
  users : Table AuthUser.id
  redis : RedisKey → Option (RedisValue × Option Nat)
  clock : Nat

namespace ChallengeStore

variable (s : ChallengeStore)

def live (key : RedisKey) : Option RedisValue :=
  match s.redis key with
  | none => none
  | some (v, none) => some v
  | some (v, some expiresAt) => if s.clock < expiresAt then some v else none

def count (key : RedisKey) : Nat :=
  match s.live key with
  | some (.counter n) => n
  | _ => 0

def write (key : RedisKey) (entry : Option (RedisValue × Option Nat)) : ChallengeStore :=
  { s with redis := fun k => if k = key then entry else s.redis k }

def del (keys : List RedisKey) : ChallengeStore :=
  { s with redis := fun k => if k ∈ keys then none else s.redis k }

/-- `INCR`: the entry keeps its time to live. -/
def incr (key : RedisKey) : ChallengeStore :=
  s.write key (some (.counter (s.count key + 1),
    (s.live key).bind fun _ => (s.redis key).bind Prod.snd))

def expire (key : RedisKey) (ttl : Nat) : ChallengeStore :=
  s.write key ((s.redis key).map fun entry => (entry.1, some (s.clock + ttl)))

def setHashes (userId : String) (hashes : List String) : ChallengeStore :=
  let set (u : AuthUser) : AuthUser := { u with mfaRecoveryCodeHashes := hashes }
  { s with users := s.users.modify (fun u => u.id = userId) set (AuthUser.id_with_hashes hashes) }

/-- A command that works leads to `t`; one that fails may have done so. -/
def Confirms {β : Type} (a : β) (t : ChallengeStore) (r : Except Failure β) (s' : ChallengeStore) :
    Prop := (r = .ok a ∧ s' = t) ∨ ((∃ e, r = .error e) ∧ (s' = s ∨ s' = t))

end ChallengeStore

/-- How the stores answer; a call that is not listed touches nothing of a challenge. -/
def challengeEffect : (c : AuthCall) → ChallengeStore → c.Answer → ChallengeStore → Prop
  | .now, s, r, s' => r = s.clock ∧ s' = s
  | .redisGet key, s, r, s' => s' = s ∧ (r = .ok (s.live key) ∨ ∃ e, r = .error e)
  | .redisSet key v ttl, s, r, s' => s.Confirms () (s.write key (some (v, some (s.clock + ttl)))) r s'
  | .redisDel keys, s, r, s' => s.Confirms () (s.del keys) r s'
  | .redisIncr key, s, r, s' => s.Confirms (s.count key + 1) (s.incr key) r s'
  | .redisExpire key ttl, s, r, s' => s.Confirms () (s.expire key ttl) r s'
  | .findUserById userId, s, r, s' =>
      s' = s ∧ (r = .ok (s.users.find? userId) ∨ ∃ e, r = .error e)
  | .setRecoveryHashes userId hashes, s, r, s' =>
      (s.users.find? userId = none ∧ (∃ e, r = .error e) ∧ s' = s) ∨
      (s.users.find? userId ≠ none ∧ s.Confirms () (s.setHashes userId hashes) r s')
  | _, s, _, s' => s' = s

/-- The calls for one challenge. Meanwhile time passes and accounts are edited. -/
def challengeServer (env : AuthEnv) (challengeId : String) :
    Server authInterface Failure AuthReply (String × RequestInfo) ChallengeStore where
  handler := fun q => verifyAdminMfa env challengeId q.1 q.2
  effect := fun _ _ => challengeEffect
  change := fun s s' => s'.redis = s.redis ∧ s.clock ≤ s'.clock

abbrev ChallengeStage :=
  Stage authInterface Failure AuthReply (String × RequestInfo) ChallengeStore

/-- How far a call for the challenge has come. -/
inductive GuessPhase where
  | arrived
  | holding
  | dismissed
  | judged
  | counted (attempts : Nat)
  | locked
  | passed
deriving DecidableEq, Repr

namespace GuessPhase

def isJudged : GuessPhase → Bool
  | .judged | .counted _ | .locked | .passed => true
  | _ => false

def isPassed : GuessPhase → Bool
  | .passed => true
  | _ => false

/-- The code was compared, and the call has neither counted it below the limit nor deleted the
challenge. -/
def isPending (env : AuthEnv) : GuessPhase → Bool
  | .judged => true
  | .counted n => env.mfaMaxAttempts ≤ n
  | _ => false

def advance (φ : GuessPhase) : (c : AuthCall) → c.Answer → GuessPhase
  | .redisGet _, r =>
    match φ, r with
    | .arrived, .ok (some (.challenge _)) => .holding
    | φ, _ => φ
  | .findUserById _, r =>
    match φ, r with
    | .holding, .ok (some user) => if user.isActive then .judged else .dismissed
    | .holding, _ => .dismissed
    | φ, _ => φ
  | .redisIncr _, r =>
    match φ, r with
    | .judged, .ok attempts => .counted attempts
    | φ, _ => φ
  | .redisDel _, r =>
    match φ, r with
    | .holding, _ => .dismissed
    | .judged, .ok _ => .passed
    | .counted _, .ok _ => .locked
    | φ, _ => φ
  | _, _ => φ

def Permits (env : AuthEnv) (challengeId : String) (φ : GuessPhase) : AuthCall → Prop
  | .redisGet key => φ = .arrived ∧ key = .mfaChallenge challengeId
  | .redisIncr key => φ = .judged ∧ key = .mfaAttempts challengeId
  | .redisExpire key ttl => (∃ n, φ = .counted n) ∧ key = .mfaAttempts challengeId ∧
      ttl = env.mfaTtlSeconds
  | .redisDel keys => keys = [.mfaChallenge challengeId, .mfaAttempts challengeId] ∧
      (φ = .holding ∨ φ = .judged ∨ ∃ n, φ = .counted n)
  | .redisSet key _ _ => ∃ userId, key = .loginContext userId
  | _ => True

end GuessPhase

section Guesses

open GuessPhase

variable (env : AuthEnv) (challengeId : String)

/-- A call that says nothing about the challenge. -/
def AuthCall.Aside : AuthCall → Prop
  | .redisGet _ | .redisTtl _ | .redisDel _ | .redisIncr _ | .redisExpire _ _ => False
  | .redisSet key _ _ => ∃ userId, key = .loginContext userId
  | _ => True

theorem aside_now : now.Only AuthCall.Aside := ⟨trivial, fun _ => trivial⟩

theorem aside_randomUUID : randomUUID.Only AuthCall.Aside := ⟨trivial, fun _ => trivial⟩

theorem aside_logMfaAudit (userId action : String) :
    (logMfaAudit userId action).Only AuthCall.Aside :=
  only_tryCatch (only_request trivial) fun _ => only_pure ()

theorem aside_consumeRecoveryCode (userId code : String) :
    (consumeRecoveryCode env userId code).Only AuthCall.Aside := by
  simp only [consumeRecoveryCode]
  split
  · trivial
  · apply only_bind (only_request trivial)
    intro found
    cases found with
    | none => trivial
    | some user =>
      simp only
      split
      · trivial
      · exact only_bind (only_request trivial) fun _ => only_pure _

theorem aside_checkCode (payload : MfaChallengePayload) (user : AuthUser) (code : String) :
    (checkCode env payload user code).Only AuthCall.Aside := by
  unfold checkCode
  split
  · apply only_bind aside_now
    intro t
    split
    · trivial
    · apply only_bind (aside_consumeRecoveryCode env _ _)
      intro consumed
      split
      · exact only_bind (aside_logMfaAudit _ _) fun _ => only_pure _
      · trivial
  · trivial

theorem aside_openSession (user : AuthUser) (req : RequestInfo) (rememberMe : Option Bool) :
    (openSession env user req rememberMe).Only AuthCall.Aside := by
  unfold openSession
  apply only_bind
  · apply only_bind aside_randomUUID
    intro jti
    apply only_bind aside_now
    intro t
    exact only_bind (only_request trivial) fun _ => only_pure _
  intro pair
  apply only_bind
  · apply only_bind aside_now
    intro t
    apply only_tryCatch
    · apply only_bind (only_request trivial)
      intro _
      exact only_request ⟨_, rfl⟩
    · intro _
      trivial
  · intro _
    trivial

/-- Calls of a request and the phases they lead to. -/
abbrev GuessMoves : (c : AuthCall) → GuessPhase → c.Answer → GuessPhase → Prop :=
  fun c φ r φ' => True ∧ φ' = φ.advance c r

variable {env challengeId}

/-- What a request does aside leaves its phase, unless the account decides about it. -/
theorem aside_stays {α : Type} {p : AuthProcess α} (hp : p.Only AuthCall.Aside) {φ : GuessPhase}
    (hφ : φ ≠ .holding) :
    p.Wp (Permits env challengeId) GuessMoves (fun _ φ' => φ' = φ) φ := by
  apply hp.stays
  · intro c hc
    cases c <;> first | exact hc.elim | exact hc
  · rintro c r φ' hc ⟨-, rfl⟩
    cases c with
    | redisGet | redisTtl | redisDel | redisIncr | redisExpire => exact hc.elim
    | findUserById userId => cases φ <;> first | exact absurd rfl hφ | rfl
    | _ => rfl

private theorem rejectCode_wp :
    (rejectCode env challengeId).Wp (Permits env challengeId) GuessMoves
      (Post (fun _ _ => False) fun _ _ => True) .judged := by
  have hlock : ∀ attempts, (if attempts ≥ env.mfaMaxAttempts then
      redisDel [.mfaChallenge challengeId, .mfaAttempts challengeId] >>= fun _ =>
        throw ⟨.tooManyRequests, "Too many failed MFA attempts. Start login again."⟩
      else (throw ⟨.unauthorized, "Invalid MFA code"⟩ : AuthProcess AuthReply)).Wp
      (Permits env challengeId) GuessMoves (Post (fun _ _ => False) fun _ _ => True)
      (.counted attempts) := by
    intro attempts
    split
    · unfold redisDel
      rw [wp_bind]
      refine ⟨⟨rfl, .inr (.inr ⟨attempts, rfl⟩)⟩, ?_⟩
      rintro (e | u) φ _ <;> trivial
    · trivial
  unfold rejectCode redisIncr
  rw [wp_bind]
  refine ⟨⟨rfl, rfl⟩, ?_⟩
  rintro (e | attempts) φ ⟨-, rfl⟩
  · trivial
  simp only [wp_ofExcept, post_ok]
  rw [wp_bind]
  unfold expireFirst redisExpire
  split
  · refine ⟨⟨⟨attempts, rfl⟩, rfl, rfl⟩, ?_⟩
    rintro (e | u) φ ⟨-, rfl⟩
    · trivial
    · exact hlock attempts
  · exact hlock attempts

private theorem passCode_wp (user : AuthUser) (req : RequestInfo) (rememberMe : Option Bool) :
    (redisDel [.mfaChallenge challengeId, .mfaAttempts challengeId] >>= fun _ =>
      openSession env user req rememberMe).Wp (Permits env challengeId) GuessMoves
      (Post (fun _ φ => φ = .passed) fun _ _ => True) .judged := by
  unfold redisDel
  rw [wp_bind]
  refine ⟨⟨rfl, .inr (.inl rfl)⟩, ?_⟩
  rintro (e | u) φ ⟨-, rfl⟩
  · trivial
  apply (aside_stays (aside_openSession env user req rememberMe) (by simp [advance])).mono
  intro out φ h
  cases out with
  | error e => trivial
  | ok reply => exact h

theorem verifyAdminMfa_wp (code : String) (req : RequestInfo) :
    (verifyAdminMfa env challengeId code req).Wp (Permits env challengeId) GuessMoves
      (Post (fun _ φ => φ = .passed) fun _ _ => True) .arrived := by
  unfold verifyAdminMfa ensureRedisConnected redisGet
  rw [wp_bind]
  refine ⟨trivial, ?_⟩
  rintro (e | u) φ ⟨-, rfl⟩
  · trivial
  simp only [wp_ofExcept, post_ok]
  rw [wp_bind]
  refine ⟨⟨rfl, rfl⟩, ?_⟩
  rintro (e | raw) φ ⟨-, rfl⟩
  · trivial
  simp only [wp_ofExcept, post_ok]
  split
  case h_2 => trivial
  case h_1 payload =>
  change Wp _ _ _ _ GuessPhase.holding
  split
  · unfold redisDel
    rw [wp_bind]
    refine ⟨⟨rfl, .inl rfl⟩, ?_⟩
    rintro (e | u) φ _ <;> trivial
  unfold findUserById
  rw [wp_bind]
  refine ⟨trivial, ?_⟩
  rintro (e | found) φ ⟨-, rfl⟩
  · trivial
  cases found with
  | none => trivial
  | some user =>
    cases hactive : user.isActive with
    | false =>
      simp only [wp_ofExcept, post_ok, hactive]
      trivial
    | true =>
      have hjudged : advance .holding (.findUserById payload.userId) (.ok (some user)) = .judged := by
        simp [advance, hactive]
      simp only [wp_ofExcept, post_ok, hactive, hjudged, Bool.not_true, Bool.false_eq_true, if_false]
      rw [wp_bind]
      apply (aside_stays (aside_checkCode env payload user code) (by decide)).mono
      rintro (e | isValidCode) φ rfl
      · trivial
      cases isValidCode with
      | true => exact passCode_wp user req _
      | false =>
        apply rejectCode_wp.mono
        intro out φ h
        cases out with
        | error e => trivial
        | ok reply => exact h.elim

variable (env challengeId)

def guessPhases : (challengeServer env challengeId).Phased GuessPhase where
  start := fun _ => .arrived
  advance := fun _ => GuessPhase.advance
  fits := fun _ _ => True
  permits := fun _ => Permits env challengeId
  returns := fun _ _ φ => φ = .passed
  sound := fun _ _ _ _ _ _ _ => trivial
  holds := fun q => verifyAdminMfa_wp q.1 q.2

end Guesses

end CloudVM
