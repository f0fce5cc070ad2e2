import CloudVM.Auth.Service
import CloudVM.Framework.Cache
import CloudVM.Framework.Lockout
import CloudVM.Framework.Logic

/-!
# Guessing a password

Logins for one email, one after another. Redis works and keeps the counter of failures and the
lock of the email; the database answers in any way. Time passes before every call, and what else
happens in Redis meanwhile leaves the two entries alone. Times are in milliseconds.
-/

namespace CloudVM.LoginLockout

open Process AuthService

section Calls

/-- Redis, when a password was compared and found wrong, and how many of these failures the
counter of the email has seen since it came into being. -/
structure LoginWorld where
  redis : Cache RedisKey RedisValue
  compared : List ℕ := []
  inLife : ℕ := 0

variable (env : AuthEnv) (email : String)

/-- Time passes, and Redis changes elsewhere. -/
structure Meanwhile (s t : LoginWorld) : Prop where
  clock : s.redis.clock ≤ t.redis.clock
  fail : t.redis.entries (.fail email) = s.redis.entries (.fail email)
  lock : t.redis.entries (.lock email) = s.redis.entries (.lock email)
  compared : t.compared = s.compared
  inLife : t.inLife = s.inLife

/-- `TTL` of an entry that expires is positive as long as the entry is there. -/
def TtlOf (redis : Cache RedisKey RedisValue) (key : RedisKey) (ttl : Int) : Prop :=
  (redis.live key = none ∧ ttl = -2) ∨ (redis.Lasting key ∧ ttl = -1) ∨
    ∃ v d, redis.entries key = some (v, some d) ∧ redis.clock < d ∧ 0 < ttl

/-- The count that `INCR` adds one to; any other value it refuses. -/
def Holds (redis : Cache RedisKey RedisValue) (key : RedisKey) (n : ℕ) : Prop :=
  (redis.live key = none ∧ n = 0) ∨ redis.live key = some (.counter n)

/-- The password is found wrong, or nothing is found out. -/
def Rejects (dto : LoginDto) : Except Failure (Option AuthUser) → Prop
  | .ok (some user) =>
    ¬ (env.bcryptCompare dto.password user.password = true ∧ user.isActive = true)
  | _ => True

/-- A call of a login that is carried out; every command to Redis succeeds. -/
def Carried (dto : LoginDto) : (c : AuthCall) → LoginWorld → c.Answer → LoginWorld → Prop
  | .redisConnect, s, r, t => r = .ok () ∧ t = s
  | .redisGet key, s, r, t => r = .ok (s.redis.live key) ∧ t = s
  | .redisTtl key, s, r, t => ∃ ttl, TtlOf s.redis key ttl ∧ r = .ok ttl ∧ t = s
  | .redisSet key v ttl, s, r, t => r = .ok () ∧
      t = { s with redis := s.redis.write key (some (v, some (s.redis.clock + 1000 * ttl))) }
  | .redisDel keys, s, r, t => r = .ok () ∧ t = { s with redis := s.redis.del keys }
  | .redisIncr key, s, r, t => ∃ n, Holds s.redis key n ∧ r = .ok (n + 1) ∧
      t = { s with
            redis := s.redis.update key fun _ => .counter (n + 1)
            inLife := if key = .fail email then if n = 0 then 1 else s.inLife + 1 else s.inLife }
  | .redisExpire key ttl, s, r, t => r = .ok () ∧
      t = { s with redis := s.redis.expire key (1000 * ttl) }
  | .findUserByEmail _, s, r, t => Rejects env dto r ∧
      t = match r with
        | .ok _ => { s with compared := s.compared ++ [s.redis.clock] }
        | .error _ => s
  | _, s, _, t => t = s

def effect (dto : LoginDto) (c : AuthCall) (s : LoginWorld) (r : c.Answer) (t : LoginWorld) :
    Prop :=
  ∃ u, Meanwhile email s u ∧ Carried env email dto c u r t

/-- What happens to the two entries: a login for the email, or nothing. -/
inductive Turn where
  | meanwhile
  | login (dto : LoginDto) (req : RequestInfo) (out : Except Failure AuthReply)

/-- Logins whose email is the same but for its case. None of them is successful. -/
def step : LoginWorld → Turn → LoginWorld → Prop
  | s, .meanwhile, t => Meanwhile email s t
  | s, .login dto req out, t =>
    env.lower dto.email = email ∧ (login env dto req).Ends (effect env email dto) s out t

end Calls

section View

variable {env : AuthEnv} {email : String} {s t u : LoginWorld}

def failures : RedisValue → ℕ
  | .counter n => n
  | _ => 0

def view (email : String) (s : LoginWorld) : Lockout where
  clock := s.redis.clock
  counter := (s.redis.entries (.fail email)).map fun entry => (failures entry.1, entry.2)
  lock := (s.redis.entries (.lock email)).bind Prod.snd
  guesses := s.compared
  inLife := s.inLife

theorem Meanwhile.refl (s : LoginWorld) : Meanwhile email s s := ⟨le_rfl, rfl, rfl, rfl, rfl⟩

theorem Meanwhile.trans (h : Meanwhile email s t) (h' : Meanwhile email t u) :
    Meanwhile email s u where
  clock := h.clock.trans h'.clock
  fail := h'.fail.trans h.fail
  lock := h'.lock.trans h.lock
  compared := h'.compared.trans h.compared
  inLife := h'.inLife.trans h.inLife

theorem waits_of_meanwhile (h : Meanwhile email s t) : (view email s).Waits (view email t) where
  clock := h.clock
  counter := by simp only [view, h.fail]
  lock := by simp only [view, h.lock]
  guesses := h.compared
  inLife := h.inLife

theorem pos_of_locked {ttl : Int} (hlocked : (view email s).Locked s.redis.clock)
    (h : TtlOf s.redis (.lock email) ttl) : 0 < ttl := by
  obtain ⟨d, hd, hlt⟩ := hlocked
  obtain ⟨⟨v, deadline⟩, hentry, rfl⟩ := Option.bind_eq_some_iff.mp hd
  rcases h with ⟨hlive, -⟩ | ⟨⟨w, hlasting⟩, -⟩ | ⟨w, d', -, -, hpos⟩
  · simp [Cache.live, hentry, hlt] at hlive
  · rw [hentry] at hlasting
    cases hlasting
  · exact hpos

end View

section Checks

variable {env : AuthEnv} {email : String} {dto : LoginDto} {s t : LoginWorld}

def Elsewhere (email : String) : AuthCall → Prop
  | .redisConnect => True
  | .redisGet _ => True
  | .redisTtl _ => True
  | .redisIncr key => key ≠ .fail email ∧ key ≠ .lock email
  | .redisExpire key _ => key ≠ .fail email ∧ key ≠ .lock email
  | _ => False

theorem meanwhile_of_elsewhere {c : AuthCall} {r : c.Answer}
    (hc : Elsewhere email c) (h : effect env email dto c s r t) : Meanwhile email s t := by
  obtain ⟨u, hu, h⟩ := h
  apply hu.trans
  cases c with
  | redisConnect =>
    rw [h.2]
    exact .refl u
  | redisGet key =>
    rw [h.2]
    exact .refl u
  | redisTtl key =>
    obtain ⟨ttl, -, -, rfl⟩ := h
    exact .refl t
  | redisIncr key =>
    obtain ⟨n, -, -, rfl⟩ := h
    exact ⟨le_rfl, if_neg hc.1.symm, if_neg hc.2.symm, rfl, if_neg hc.1⟩
  | redisExpire key ttl =>
    obtain ⟨-, rfl⟩ := h
    exact ⟨le_rfl, if_neg hc.1.symm, if_neg hc.2.symm, rfl, rfl⟩
  | _ => exact hc.elim

theorem wp_elsewhere {α : Type} {p : AuthProcess α} (hp : p.Only (Elsewhere email)) :
    p.Wp (fun _ _ => True) (effect env email dto) (fun _ t => Meanwhile email s t) s := by
  have hkeeps : p.Keeps (fun _ _ => True) (effect env email dto) (Meanwhile email s) := by
    apply hp.keeps
    · intro _ _ _
      trivial
    · intro c t r u hc ht h
      exact ht.trans (meanwhile_of_elsewhere hc h)
  exact hkeeps s (.refl s)

theorem elsewhere_assertCaptchaIfNeeded (address : String) (captchaToken : Option String) :
    (assertCaptchaIfNeeded env address captchaToken).Only (Elsewhere email) := by
  apply only_bind
  · unfold isCaptchaRequired
    split
    · trivial
    · apply only_bind
      · exact only_request trivial
      · intro _
        apply only_bind
        · exact only_request trivial
        · intro value
          split <;> trivial
  · intro required
    split
    · simp only
      split
      · exact True.intro
      · split
        · exact True.intro
        · trivial
    · trivial

theorem assertNotLocked_wp (hemail : env.lower dto.email = email) :
    (assertNotLocked env dto.email).Wp (fun _ _ => True) (effect env email dto)
      (Post (fun _ t => Meanwhile email s t ∧ ¬ (view email s).Locked t.redis.clock)
        fun e t => Meanwhile email s t ∧ ∃ message, e = ⟨.tooManyRequests, message⟩) s := by
  unfold assertNotLocked ensureRedisConnected
  rw [wp_bind]
  refine ⟨trivial, ?_⟩
  intro r t h
  have ht : Meanwhile email s t := meanwhile_of_elsewhere (c := .redisConnect) trivial h
  obtain ⟨-, -, rfl, -⟩ := h
  rw [wp_ofExcept, post_ok, wp_bind]
  refine ⟨trivial, ?_⟩
  intro r u h
  have hu : Meanwhile email s u :=
    ht.trans (meanwhile_of_elsewhere (c := .redisTtl (.lock (env.lower dto.email))) trivial h)
  obtain ⟨v, hv, ttl, httl, rfl, rfl⟩ := h
  rw [wp_ofExcept, post_ok]
  split
  · exact ⟨hu, _, rfl⟩
  · rename_i hnot
    refine ⟨hu, ?_⟩
    rintro ⟨d, hd, hlt⟩
    rw [hemail] at httl
    exact hnot (pos_of_locked ⟨d, (waits_of_meanwhile hu).lock.trans hd, hlt⟩ httl)

end Checks

section Counter

variable {env : AuthEnv} {email : String} {dto : LoginDto} {s t : LoginWorld}

/-- The counter of the email, while there is one, has counted something. -/
def Positive (email : String) (s : LoginWorld) : Prop :=
  ∀ d, s.redis.entries (.fail email) ≠ some (.counter 0, d)

theorem Positive.meanwhile (hs : Positive email s) (h : Meanwhile email s t) :
    Positive email t := by
  intro d
  rw [h.fail]
  exact hs d

theorem count_eq_live (email : String) (s : LoginWorld) :
    (view email s).count s.redis.clock = (s.redis.live (.fail email)).elim 0 failures := by
  unfold Lockout.count view Cache.live
  cases s.redis.entries (.fail email) with
  | none => rfl
  | some entry =>
    obtain ⟨v, deadline⟩ := entry
    cases deadline with
    | none => rfl
    | some d =>
      simp only [Option.map_some]
      split <;> rfl

theorem count_of_holds {n : ℕ} (h : Holds s.redis (.fail email) n) :
    (view email s).count s.redis.clock = n := by
  rw [count_eq_live]
  rcases h with ⟨hlive, rfl⟩ | hlive
  · rw [hlive]
    rfl
  · rw [hlive]
    rfl

/-- The count is one more, and either the counter is new, or it keeps its expiry. -/
structure Incremented (email : String) (s t : LoginWorld) (tally n : ℕ) : Prop where
  before : s.redis.clock ≤ tally
  after : tally ≤ t.redis.clock
  compared : t.compared = s.compared
  lock : t.redis.entries (.lock email) = s.redis.entries (.lock email)
  n_eq : n = (view email s).count tally + 1
  counter : ((view email s).count tally = 0 ∧ t.inLife = 1 ∧
      t.redis.entries (.fail email) = some (.counter 1, none)) ∨
    (0 < (view email s).count tally ∧ t.inLife = s.inLife + 1 ∧
      ∃ d, (view email s).counter = some ((view email s).count tally, d) ∧
        t.redis.entries (.fail email) = some (.counter ((view email s).count tally + 1), d))

theorem count_meanwhile (h : Meanwhile email s t) (time : ℕ) :
    (view email t).count time = (view email s).count time := by
  unfold Lockout.count
  rw [(waits_of_meanwhile h).counter]

theorem incr_spec (hs : Positive email s) {r : Except Failure ℕ}
    (h : effect env email dto (.redisIncr (.fail email)) s r t) :
    ∃ n tally, r = .ok n ∧ Incremented email s t tally n := by
  obtain ⟨u, hu, n, hn, rfl, rfl⟩ := h
  have hcount : (view email s).count u.redis.clock = n := by
    rw [← count_meanwhile hu, count_of_holds hn]
  refine ⟨n + 1, u.redis.clock, rfl, hu.clock, le_rfl, hu.compared, ?_, by rw [hcount], ?_⟩
  · simp [Cache.update, Cache.write, hu.lock]
  · rcases hn with ⟨hlive, rfl⟩ | hlive
    · left
      refine ⟨hcount, by simp, ?_⟩
      simp [Cache.update, Cache.write, hlive]
    · obtain ⟨d, hentry⟩ := Cache.entry_of_live hlive
      have hne : n ≠ 0 := by
        intro hzero
        rw [hzero] at hentry
        exact hs.meanwhile hu d hentry
      right
      rw [hcount]
      refine ⟨by omega, by simp [hne, hu.inLife], d, ?_, ?_⟩
      · simp [view, ← hu.fail, hentry, failures]
      · simp [Cache.update, Cache.write, hlive, hentry]

/-- The counter of a failure, with its expiry. -/
structure Counted (window : ℕ) (email : String) (s t : LoginWorld) (tally n : ℕ) : Prop where
  before : s.redis.clock ≤ tally
  after : tally ≤ t.redis.clock
  compared : t.compared = s.compared
  lock : t.redis.entries (.lock email) = s.redis.entries (.lock email)
  n_eq : n = (view email s).count tally + 1
  positive : Positive email t
  counter : ((view email s).count tally = 0 ∧ t.inLife = 1 ∧
      ∃ d, tally + 1000 * window ≤ d ∧ (view email t).counter = some (1, some d)) ∨
    (0 < (view email s).count tally ∧ t.inLife = s.inLife + 1 ∧
      ∃ d, (view email s).counter = some ((view email s).count tally, d) ∧
        (view email t).counter = some ((view email s).count tally + 1, d))

theorem Counted.meanwhile {window tally n : ℕ} {u : LoginWorld}
    (h : Counted window email s t tally n) (hu : Meanwhile email t u) :
    Counted window email s u tally n where
  before := h.before
  after := h.after.trans hu.clock
  compared := hu.compared.trans h.compared
  lock := hu.lock.trans h.lock
  n_eq := h.n_eq
  positive := h.positive.meanwhile hu
  counter := by
    rw [(waits_of_meanwhile hu).counter, hu.inLife]
    exact h.counter

theorem expireFirst_wp {tally n : ℕ} (h : Incremented email s t tally n) :
    (expireFirst n (.fail email) env.lockWindowSeconds).Wp (fun _ _ => True) (effect env email dto)
      (Post (fun _ u => Counted env.lockWindowSeconds email s u tally n) fun _ _ => False) t := by
  unfold expireFirst
  rcases h.counter with ⟨hzero, hlife, hentry⟩ | ⟨hpos, hlife, d, hold, hentry⟩
  · rw [if_pos (by rw [h.n_eq, hzero])]
    refine ⟨trivial, ?_⟩
    intro r u hu
    obtain ⟨v, hv, rfl, rfl⟩ := hu
    have hlive : v.redis.live (.fail email) = some (.counter 1) := by
      simp [Cache.live, hv.fail, hentry]
    have hexpire : (v.redis.expire (.fail email) (1000 * env.lockWindowSeconds)).entries
        (.fail email) = some (.counter 1, some (v.redis.clock + 1000 * env.lockWindowSeconds)) := by
      simp [Cache.expire, Cache.write, hlive]
    have hclock := h.after.trans hv.clock
    refine ⟨h.before, hclock, hv.compared.trans h.compared, ?_, h.n_eq, ?_, .inl ?_⟩
    · rw [← h.lock, ← hv.lock]
      simp [Cache.expire, Cache.write]
    · intro d hd
      rw [hexpire] at hd
      cases hd
    · refine ⟨hzero, hv.inLife.trans hlife, v.redis.clock + 1000 * env.lockWindowSeconds, ?_, ?_⟩
      · omega
      · simp [view, hexpire, failures]
  · rw [if_neg (by rw [h.n_eq]; omega)]
    refine ⟨h.before, h.after, h.compared, h.lock, h.n_eq, ?_, .inr ⟨hpos, hlife, d, hold, ?_⟩⟩
    · intro d' hd
      rw [hentry] at hd
      cases hd
    · simp [view, hentry, failures]

end Counter

section Lock

variable {env : AuthEnv} {email : String} {dto : LoginDto} {s t : LoginWorld}

theorem window_le_progressiveSeconds (hmultiplier : 1 ≤ env.lockProgressiveMultiplier)
    (hmax : env.lockWindowSeconds ≤ env.lockMaxSeconds) (streak : ℕ) :
    env.lockWindowSeconds ≤ progressiveSeconds env streak := by
  have hpow : (1 : Rat) ≤ env.lockProgressiveMultiplier ^ (streak - 1) := one_le_pow₀ hmultiplier
  have hle : (env.lockWindowSeconds : Rat) ≤
      env.lockWindowSeconds * env.lockProgressiveMultiplier ^ (streak - 1) :=
    le_mul_of_one_le_right (Nat.cast_nonneg _) hpow
  have hfloor : (env.lockWindowSeconds : Int) ≤
      ((env.lockWindowSeconds : Rat) * env.lockProgressiveMultiplier ^ (streak - 1) +
        1 / 2).floor := by
    change (env.lockWindowSeconds : Int) ≤
      ⌊(env.lockWindowSeconds : Rat) * env.lockProgressiveMultiplier ^ (streak - 1) + 1 / 2⌋
    rw [Int.le_floor]
    push_cast
    linarith
  unfold progressiveSeconds
  omega

/-- A failure that has been counted, and the lock that it may have set. -/
structure Registered (env : AuthEnv) (email : String) (s t : LoginWorld) (tally : ℕ) : Prop where
  before : s.redis.clock ≤ tally
  after : tally ≤ t.redis.clock
  compared : t.compared = s.compared
  positive : Positive email t
  counter : ((view email s).count tally = 0 ∧ t.inLife = 1 ∧
      ∃ d, tally + 1000 * env.lockWindowSeconds ≤ d ∧ (view email t).counter = some (1, some d)) ∨
    (0 < (view email s).count tally ∧ t.inLife = s.inLife + 1 ∧
      ∃ d, (view email s).counter = some ((view email s).count tally, d) ∧
        (view email t).counter = some ((view email s).count tally + 1, d))
  lock : ((view email s).count tally + 1 < env.maxFailedAttempts ∧
      (view email t).lock = (view email s).lock) ∨
    (env.maxFailedAttempts ≤ (view email s).count tally + 1 ∧
      ∃ d, t.redis.clock + 1000 * env.lockWindowSeconds ≤ d ∧ (view email t).lock = some d)

theorem Meanwhile.registered {u : LoginWorld} {tally : ℕ} (hs : Meanwhile email s t)
    (h : Registered env email t u tally) : Registered env email s u tally where
  before := hs.clock.trans h.before
  after := h.after
  compared := h.compared.trans hs.compared
  positive := h.positive
  counter := by
    rw [← count_meanwhile hs, ← hs.inLife, ← (waits_of_meanwhile hs).counter]
    exact h.counter
  lock := by
    rw [← count_meanwhile hs, ← (waits_of_meanwhile hs).lock]
    exact h.lock

theorem Counted.registered {tally n : ℕ} (h : Counted env.lockWindowSeconds email s t tally n)
    (hn : n < env.maxFailedAttempts) : Registered env email s t tally where
  before := h.before
  after := h.after
  compared := h.compared
  positive := h.positive
  counter := h.counter
  lock := by
    left
    rw [← h.n_eq]
    exact ⟨hn, by simp only [view, h.lock]⟩

variable (hmultiplier : 1 ≤ env.lockProgressiveMultiplier)
  (hmax : env.lockWindowSeconds ≤ env.lockMaxSeconds) (hemail : env.lower dto.email = email)

include hmultiplier hmax hemail

theorem lockAccount_wp {tally n : ℕ} (h : Counted env.lockWindowSeconds email s t tally n)
    (hn : env.maxFailedAttempts ≤ n) :
    (lockAccount env dto.email).Wp (fun _ _ => True) (effect env email dto)
      (Post (fun _ _ => False) fun _ u => Registered env email s u tally) t := by
  unfold lockAccount
  rw [hemail, wp_bind]
  refine ⟨trivial, ?_⟩
  intro r t₁ h₁
  have ht₁ : Meanwhile email t t₁ :=
    meanwhile_of_elsewhere (c := .redisIncr (.lockStreak email)) ⟨nofun, nofun⟩ h₁
  obtain ⟨-, -, streak, -, rfl, -⟩ := h₁
  rw [wp_ofExcept, post_ok, wp_bind]
  refine ⟨trivial, ?_⟩
  intro r t₂ h₂
  have ht₂ : Meanwhile email t t₂ := ht₁.trans
    (meanwhile_of_elsewhere (c := .redisExpire (.lockStreak email) 86400) ⟨nofun, nofun⟩ h₂)
  obtain ⟨-, -, rfl, -⟩ := h₂
  rw [wp_ofExcept, post_ok, wp_bind]
  refine ⟨trivial, ?_⟩
  intro r t₃ h₃
  obtain ⟨v, hv, rfl, rfl⟩ := h₃
  rw [wp_ofExcept, post_ok]
  have hcounted := h.meanwhile (ht₂.trans hv)
  have hwindow := window_le_progressiveSeconds hmultiplier hmax (streak + 1)
  refine ⟨hcounted.before, hcounted.after, hcounted.compared, ?_, ?_, .inr ⟨?_, ?_⟩⟩
  · intro d
    simpa [Cache.write] using hcounted.positive d
  · simpa [view, Cache.write] using hcounted.counter
  · rw [← h.n_eq]
    exact hn
  · refine ⟨v.redis.clock + 1000 * progressiveSeconds env (streak + 1), ?_, ?_⟩
    · simp only [Cache.write]
      omega
    · simp [view, Cache.write]

theorem registerFailedLogin_wp (hs : Positive email s) :
    (registerFailedLogin env dto.email).Wp (fun _ _ => True) (effect env email dto)
      (fun _ t => ∃ tally, Registered env email s t tally) s := by
  unfold registerFailedLogin ensureRedisConnected
  rw [wp_bind]
  refine ⟨trivial, ?_⟩
  intro r s₁ h₁
  have hs₁ : Meanwhile email s s₁ := meanwhile_of_elsewhere (c := .redisConnect) trivial h₁
  obtain ⟨-, -, rfl, -⟩ := h₁
  rw [wp_ofExcept, post_ok, hemail, wp_bind]
  refine ⟨trivial, ?_⟩
  intro r s₂ h₂
  obtain ⟨n, tally, rfl, hincremented⟩ := incr_spec (hs.meanwhile hs₁) h₂
  rw [wp_ofExcept, post_ok]
  apply (expireFirst_wp hincremented).bind
  · intro e t hout
    exact hout.elim
  · intro _ t hout
    simp only [post_ok] at hout
    split
    · rename_i hlimit
      apply (lockAccount_wp hmultiplier hmax hemail hout hlimit).mono
      intro out u hu
      cases out with
      | ok _ => exact hu.elim
      | error e => exact ⟨tally, hs₁.registered hu⟩
    · rename_i hlimit
      exact ⟨tally, hs₁.registered (hout.registered (by omega))⟩

end Lock

section Login

variable {env : AuthEnv} {email : String} {dto : LoginDto} {s t : LoginWorld}

/-- What a login that is not successful comes to: it looks at the lock first, and is refused or
goes on; then it fails elsewhere, or a password is compared and the failure registered. -/
inductive Outcome (env : AuthEnv) (email : String) (s : LoginWorld) :
    Except Failure AuthReply → LoginWorld → Prop where
  | refused {t : LoginWorld} {message : String} (h : Meanwhile email s t) :
      Outcome env email s (.error ⟨.tooManyRequests, message⟩) t
  | elsewhere {t : LoginWorld} {out : Except Failure AuthReply} {look : ℕ} (h : Meanwhile email s t)
      (hlook : look ≤ t.redis.clock) (hfree : ¬ (view email s).Locked look) :
      Outcome env email s out t
  | compared {t : LoginWorld} {out : Except Failure AuthReply} {look guess tally : ℕ}
      (hpositive : Positive email t)
      (h : (view email s).FailsAt (view email t) env.maxFailedAttempts
        (1000 * env.lockWindowSeconds) look guess tally) : Outcome env email s out t

variable (hmultiplier : 1 ≤ env.lockProgressiveMultiplier)
  (hmax : env.lockWindowSeconds ≤ env.lockMaxSeconds) (hemail : env.lower dto.email = email)

include hmultiplier hmax hemail

theorem refuseLogin_wp {α : Type} (hs : Positive email s) (message : String) :
    (refuseLogin env dto.email message : AuthProcess α).Wp (fun _ _ => True)
      (effect env email dto)
      (Post (fun _ _ => False) fun _ t => ∃ tally, Registered env email s t tally) s := by
  unfold refuseLogin
  apply (registerFailedLogin_wp hmultiplier hmax hemail hs).bind
  · intro e t hout
    exact hout
  · intro _ t hout
    exact hout

omit hmultiplier hmax hemail in
theorem failsAt_of_registered {u g : LoginWorld} {look tally : ℕ} (hlook : s.redis.clock ≤ look)
    (hfree : ¬ (view email s).Locked look) (hu : Meanwhile email s u) (hle : look ≤ u.redis.clock)
    (hg : g = { u with compared := u.compared ++ [u.redis.clock] })
    (h : Registered env email g t tally) :
    (view email s).FailsAt (view email t) env.maxFailedAttempts (1000 * env.lockWindowSeconds) look
      u.redis.clock tally := by
  have hcount : (view email g).count tally = (view email s).count tally := by
    rw [← count_meanwhile hu tally, hg]
    rfl
  have hcounter : (view email g).counter = (view email s).counter := by
    rw [← (waits_of_meanwhile hu).counter, hg]
    rfl
  have hlock : (view email g).lock = (view email s).lock := by
    rw [← (waits_of_meanwhile hu).lock, hg]
    rfl
  have hlife : g.inLife = s.inLife := by
    rw [hg]
    exact hu.inLife
  have hregistered := h.counter
  have hlocked := h.lock
  rw [hcount, hcounter, hlife] at hregistered
  rw [hcount, hlock] at hlocked
  refine ⟨hlook, hfree, hle, ?_, h.after, ?_, hregistered, hlocked⟩
  · have hbefore := h.before
    rw [hg] at hbefore
    exact hbefore
  · have hcompared := h.compared
    rw [hg, hu.compared] at hcompared
    exact hcompared

theorem authenticate_wp (req : RequestInfo) (hs : Positive email s) :
    (authenticate env dto req).Wp (fun _ _ => True) (effect env email dto)
      (Post (fun _ _ => False) fun e t => Outcome env email s (.error e) t) s := by
  unfold authenticate
  apply (assertNotLocked_wp hemail).bind
  · intro e t hout
    obtain ⟨ht, message, rfl⟩ := hout
    exact .refused ht
  · intro _ t hout
    obtain ⟨ht, hfree⟩ := hout
    apply (wp_elsewhere (elsewhere_assertCaptchaIfNeeded dto.email dto.captchaToken)).bind
    · intro e u hu
      exact .elsewhere (ht.trans hu) hu.clock hfree
    · intro _ u hu
      rw [wp_bind]
      refine ⟨trivial, ?_⟩
      intro r g hg
      obtain ⟨v, hv, hrejects, hg⟩ := hg
      have htv : Meanwhile email s v := ht.trans (hu.trans hv)
      have hlook : t.redis.clock ≤ v.redis.clock := hu.clock.trans hv.clock
      rw [wp_ofExcept]
      cases r with
      | error e =>
        rw [hg]
        exact .elsewhere htv hlook hfree
      | ok found =>
        have hpositive : Positive email g := by
          have hv : Positive email v := hs.meanwhile htv
          rw [hg]
          exact hv
        have hrefuse : ∀ message, (refuseLogin env dto.email message : AuthProcess AuthUser).Wp
            (fun _ _ => True) (effect env email dto)
            (Post (fun _ _ => False) fun e t => Outcome env email s (.error e) t) g := by
          intro message
          apply (refuseLogin_wp hmultiplier hmax hemail hpositive message).mono
          intro out w hw
          cases out with
          | ok _ => exact hw.elim
          | error e =>
            obtain ⟨tally, hregistered⟩ := hw
            exact .compared hregistered.positive
              (failsAt_of_registered ht.clock hfree htv hlook hg hregistered)
        cases found with
        | none => exact hrefuse _
        | some user =>
          simp only [post_ok]
          split
          · exact hrefuse _
          · rename_i hpassword
            split
            · exact hrefuse _
            · rename_i hactive
              exact absurd ⟨by simpa using hpassword, by simpa using hactive⟩ hrejects

theorem login_wp (req : RequestInfo) (hs : Positive email s) :
    (login env dto req).Wp (fun _ _ => True) (effect env email dto) (Outcome env email s) s := by
  unfold login
  apply (authenticate_wp hmultiplier hmax hemail req hs).bind
  · intro e t hout
    exact hout
  · intro _ t hout
    exact hout.elim

end Login

section Results

variable {env : AuthEnv} {email : String}

theorem positive_step (hmultiplier : 1 ≤ env.lockProgressiveMultiplier)
    (hmax : env.lockWindowSeconds ≤ env.lockMaxSeconds) (s : LoginWorld) (turn : Turn)
    (t : LoginWorld) (hs : Positive email s) (h : step env email s turn t) :
    Positive email t ∧ (view email s).Attempts (view email t) env.maxFailedAttempts
      (1000 * env.lockWindowSeconds) := by
  cases turn with
  | meanwhile => exact ⟨hs.meanwhile h, .inl (waits_of_meanwhile h)⟩
  | login dto req out =>
    have houtcome := (login_wp hmultiplier hmax h.1 req hs).ends h.2
    cases houtcome with
    | refused ht => exact ⟨hs.meanwhile ht, .inl (waits_of_meanwhile ht)⟩
    | elsewhere ht hlook hfree => exact ⟨hs.meanwhile ht, .inl (waits_of_meanwhile ht)⟩
    | compared hpositive hfails => exact ⟨hpositive, .inr ⟨_, _, _, hfails⟩⟩

/-- Before the first login nothing has been compared. -/
structure Start (email : String) (s : LoginWorld) : Prop where
  compared : s.compared = []
  inLife : s.inLife = 0
  positive : Positive email s

/-- A login that the service refuses without having compared the password. -/
def RefusedUnseen (s : LoginWorld) (out : Except Failure AuthReply) (t : LoginWorld) : Prop :=
  t.compared = s.compared ∧ ∃ message, out = .error ⟨.tooManyRequests, message⟩

theorem lock_of_login {s t : LoginWorld} {dto : LoginDto} {req : RequestInfo}
    {out : Except Failure AuthReply} (hattempts : 1 ≤ env.maxFailedAttempts)
    (hmultiplier : 1 ≤ env.lockProgressiveMultiplier)
    (hmax : env.lockWindowSeconds ≤ env.lockMaxSeconds) (hs : Positive email s)
    (hcounted : (view email s).Counted) (h : step env email s (.login dto req out) t)
    (hne : t.compared ≠ s.compared) (hlife : env.maxFailedAttempts ≤ t.inLife) :
    ∃ d, (view email t).lock = some d ∧ t.redis.clock + 1000 * env.lockWindowSeconds ≤ d := by
  have houtcome := (login_wp hmultiplier hmax h.1 req hs).ends h.2
  cases houtcome with
  | refused ht => exact absurd ht.compared hne
  | elsewhere ht hlook hfree => exact absurd ht.compared hne
  | compared hpositive hfails => exact Lockout.lock_of_failsAt hcounted hfails hattempts hlife

theorem refused_of_lock {s t : LoginWorld} {dto : LoginDto} {req : RequestInfo}
    {out : Except Failure AuthReply} {d : ℕ} (hmultiplier : 1 ≤ env.lockProgressiveMultiplier)
    (hmax : env.lockWindowSeconds ≤ env.lockMaxSeconds) (hs : Positive email s)
    (hlock : (view email s).lock = some d ∨ d ≤ s.redis.clock)
    (h : step env email s (.login dto req out) t) (hd : t.redis.clock < d) :
    RefusedUnseen s out t := by
  have hattempts := (positive_step hmultiplier hmax s _ t hs h).2
  have hclock : s.redis.clock ≤ t.redis.clock := Lockout.clock_attempts hattempts
  have hlocked : ∀ look, look ≤ t.redis.clock → (view email s).Locked look := by
    intro look hlook
    rcases hlock with hlock | hlock
    · exact ⟨d, hlock, by omega⟩
    · omega
  have houtcome := (login_wp hmultiplier hmax h.1 req hs).ends h.2
  cases houtcome with
  | refused ht => exact ⟨ht.compared, _, rfl⟩
  | elsewhere ht hlook hfree => exact absurd (hlocked _ hlook) hfree
  | compared hpositive hfails =>
    have hlook := hfails.guessed.trans (hfails.counted.trans hfails.clock)
    exact absurd (hlocked _ hlook) hfails.free

/-- A login that fails, with at least the limit of failures in the life of the counter. -/
def Exhausts (env : AuthEnv) (s t : LoginWorld) : Prop :=
  t.compared ≠ s.compared ∧ env.maxFailedAttempts ≤ t.inLife

def comparedIn (s : LoginWorld) (start length : ℕ) : ℕ :=
  s.compared.countP fun time => start ≤ time ∧ time < start + length

/-- Whatever the times of the logins, in an interval as long as the window at most twice the limit
less one come to the comparison and fail; and after as many failures as the limit in one life of
the counter, every login within the window is refused before the comparison. -/
theorem lockout_bounds_guessing (hattempts : 1 ≤ env.maxFailedAttempts)
    (hmultiplier : 1 ≤ env.lockProgressiveMultiplier)
    (hmax : env.lockWindowSeconds ≤ env.lockMaxSeconds) {s t : LoginWorld} (hs : Start email s)
    {trace : List (Turn × LoginWorld)} (h : Run (step env email) s trace t) :
    (∀ start, comparedIn t start (1000 * env.lockWindowSeconds) ≤
      2 * env.maxFailedAttempts - 1) ∧
    ∀ dto req out u, step env email t (.login dto req out) u → Exhausts env t u →
      ∀ trace' v, Run (step env email) u trace' v →
      ∀ dto' req' out' w, step env email v (.login dto' req' out') w →
        w.redis.clock < u.redis.clock + 1000 * env.lockWindowSeconds → RefusedUnseen v out' w := by
  have hstep : ∀ s turn t, Positive email s → step env email s turn t → Positive email t ∧
      (view email s).Attempts (view email t) env.maxFailedAttempts
        (1000 * env.lockWindowSeconds) := positive_step hmultiplier hmax
  constructor
  · intro start
    have hle := Lockout.guessesIn_le hattempts hstep hs.positive hs.compared h start
    exact hle
  · intro dto req out u hu hexhausts trace' v hv dto' req' out' w hw hclock
    obtain ⟨ht, hcounted⟩ := Lockout.counted_run hstep hs.positive hs.inLife h
    have hpositive : Positive email u := (hstep t _ u ht hu).1
    obtain ⟨d, hlock, hd⟩ :=
      lock_of_login hattempts hmultiplier hmax ht hcounted hu hexhausts.1 hexhausts.2
    have hvlock := Lockout.lock_run hstep hpositive hlock hv
    have hvpositive : Positive email v := by
      apply hv.invariant hpositive
      intro s turn t hs hst
      exact (hstep s turn t hs hst).1
    exact refused_of_lock hmultiplier hmax hvpositive hvlock hw (by omega)

private def strictEnv : AuthEnv := { AuthEnv.sample with maxFailedAttempts := 1 }

private def wrongDto : LoginDto := { email := "a@x.tn", password := "guess" }

private def idle : LoginWorld where
  redis := { entries := fun _ => none, clock := 0 }

private def guessed : LoginWorld := { idle with compared := [0] }

private def counted : LoginWorld where
  redis := idle.redis.update (.fail "a@x.tn") fun _ => .counter 1
  compared := [0]
  inLife := 1

private def expiring : LoginWorld :=
  { counted with redis := counted.redis.expire (.fail "a@x.tn") 900000 }

private def streak : LoginWorld :=
  { expiring with redis := expiring.redis.update (.lockStreak "a@x.tn") fun _ => .counter 1 }

private def fading : LoginWorld :=
  { streak with redis := streak.redis.expire (.lockStreak "a@x.tn") 86400000 }

private def locked : LoginWorld :=
  { fading with
    redis := fading.redis.write (.lock "a@x.tn")
      (some (.one, some (0 + 1000 * progressiveSeconds strictEnv 1))) }

private theorem guess_locks (req : RequestInfo) : ∃ message,
    step strictEnv "a@x.tn" idle (.login wrongDto req (.error ⟨.tooManyRequests, message⟩))
      locked := by
  have hconnect : effect strictEnv "a@x.tn" wrongDto .redisConnect idle (.ok ()) idle :=
    ⟨idle, .refl _, rfl, rfl⟩
  have hlook : effect strictEnv "a@x.tn" wrongDto (.redisTtl (.lock "a@x.tn")) idle (.ok (-2))
      idle := ⟨idle, .refl _, -2, .inl ⟨rfl, rfl⟩, rfl, rfl⟩
  have hfind : effect strictEnv "a@x.tn" wrongDto (.findUserByEmail "a@x.tn") idle (.ok none)
      guessed := ⟨idle, .refl _, trivial, rfl⟩
  have hconnect' : effect strictEnv "a@x.tn" wrongDto .redisConnect guessed (.ok ()) guessed :=
    ⟨guessed, .refl _, rfl, rfl⟩
  have hcount : effect strictEnv "a@x.tn" wrongDto (.redisIncr (.fail "a@x.tn")) guessed (.ok 1)
      counted := ⟨guessed, .refl _, 0, .inl ⟨rfl, rfl⟩, rfl, rfl⟩
  have hexpire : effect strictEnv "a@x.tn" wrongDto (.redisExpire (.fail "a@x.tn") 900) counted
      (.ok ()) expiring := ⟨counted, .refl _, rfl, rfl⟩
  have hstreak : effect strictEnv "a@x.tn" wrongDto (.redisIncr (.lockStreak "a@x.tn")) expiring
      (.ok 1) streak := ⟨expiring, .refl _, 0, .inl ⟨rfl, rfl⟩, rfl, rfl⟩
  have hfade : effect strictEnv "a@x.tn" wrongDto (.redisExpire (.lockStreak "a@x.tn") 86400) streak
      (.ok ()) fading := ⟨streak, .refl _, rfl, rfl⟩
  have hlock : effect strictEnv "a@x.tn" wrongDto
      (.redisSet (.lock "a@x.tn") .one (progressiveSeconds strictEnv 1)) fading (.ok ()) locked :=
    ⟨fading, .refl _, rfl, rfl⟩
  exact ⟨_, rfl, _, _, hconnect, _, _, hlook, _, _, hfind, _, _, hconnect', _, _, hcount, _, _,
    hexpire, _, _, hstreak, _, _, hfade, _, _, hlock, rfl, rfl⟩

/-- With one guess allowed, a wrong one is the only one that is compared in 15 minutes. -/
theorem lockout_bounds_guessing_strict :
    comparedIn locked 0 900000 ≤ 1 ∧
    ∀ trace v, Run (step strictEnv "a@x.tn") locked trace v →
      ∀ dto req out w, step strictEnv "a@x.tn" v (.login dto req out) w →
        w.redis.clock < 900000 → RefusedUnseen v out w := by
  have hstart : Start "a@x.tn" idle := ⟨rfl, rfl, nofun⟩
  have hmax : strictEnv.lockWindowSeconds ≤ strictEnv.lockMaxSeconds := by decide
  obtain ⟨message, hguess⟩ := guess_locks ⟨"fp", "127.0.0.1", "ua", none⟩
  constructor
  · exact (lockout_bounds_guessing (by decide) le_rfl hmax hstart (Run.single hguess)).1 0
  · intro trace v hv dto req out w hw hclock
    exact (lockout_bounds_guessing (by decide) le_rfl hmax hstart .nil).2 _ _ _ _ hguess
      ⟨by decide, by decide⟩ trace v hv dto req out w hw (hclock.trans_le (by decide))

end Results

end CloudVM.LoginLockout
