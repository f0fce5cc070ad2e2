import CloudVM.Auth.Challenge
import CloudVM.Framework.Cache
import CloudVM.Framework.FollowUp
import CloudVM.Limits.Gateway

/-!
# Counters and their expiry

The limiters of the gateway and the sign-in of the auth service work on one Redis. A counter is
made by `INCR` and gets its expiry by a second command. Any command may fail, with its effect or
without, and a request may end between two commands.
-/

namespace CloudVM.Limits

open Process AuthService

section Calls

inductive CounterCall where
  | gateway (c : GatewayCall)
  | auth (c : AuthCall)

@[reducible] def CounterCall.Answer : CounterCall → Type
  | .gateway c => c.Answer
  | .auth c => c.Answer

@[reducible] def counterInterface : Interface where
  Call := CounterCall
  Answer := CounterCall.Answer

abbrev CounterProcess (α : Type) := Process counterInterface Failure α

def ofGateway {α : Type} (p : GatewayProcess α) : CounterProcess α := p.lift .gateway fun _ r => r

def ofAuth {α : Type} (p : AuthProcess α) : CounterProcess α := p.lift .auth fun _ r => r

/-- A key of the gateway as text, or one of the auth service; none is both. -/
inductive CounterKey where
  | gateway (text : String)
  | auth (key : RedisKey)
deriving DecidableEq, Repr

end Calls

section Requests

structure CounterEnv where
  gateway : GatewayEnv
  auth : AuthEnv

inductive CounterRequest where
  | http (req : HttpRequest)
  | throttle (key : String) (ttl limit : ℕ)
  | terminalUpgrade (realIp : Option Access.HeaderValue)
  | login (dto : LoginDto) (req : RequestInfo)
  | verifyAdminMfa (challengeId code : String) (req : RequestInfo)

def CounterRequest.handle (env : CounterEnv) : CounterRequest → CounterProcess (LimitReply ⊕ AuthReply)
  | .http req => ofGateway (use env.gateway req) >>= fun reply => pure (.inl reply)
  | .throttle key ttl limit => ofGateway (increment key ttl limit) >>= fun reply => pure (.inl reply)
  | .terminalUpgrade realIp =>
      ofGateway (checkTerminalWsRateLimit env.gateway realIp) >>= fun reply => pure (.inl reply)
  | .login dto req => ofAuth (AuthService.login env.auth dto req) >>= fun reply => pure (.inr reply)
  | .verifyAdminMfa challengeId code req =>
      ofAuth (AuthService.verifyAdminMfa env.auth challengeId code req) >>= fun reply =>
        pure (.inr reply)

end Requests

section Store

/-- Redis, with the time in milliseconds. -/
abbrev CounterStore := Cache CounterKey RedisValue

variable (s : CounterStore)

def count (key : CounterKey) : ℕ :=
  match s.live key with
  | some (.counter n) => n
  | _ => 0

def incremented : Option RedisValue → RedisValue
  | some (.counter n) => .counter (n + 1)
  | _ => .counter 1

/-- `INCR`. -/
def IncrBy (key : CounterKey) (r : Except Failure ℕ) (s' : CounterStore) : Prop :=
  s.Confirms (count s key + 1) (s.update key incremented) r s'

/-- `EXPIRE` and `PEXPIRE`. -/
def ExpireBy (key : CounterKey) (milliseconds : ℕ) (r : Except Failure Unit) (s' : CounterStore) :
    Prop := s.Confirms () (s.expire key milliseconds) r s'

def gatewayEffect : (c : GatewayCall) → CounterStore → c.Answer → CounterStore → Prop
  | .connect, s, _, s' => s' = s
  | .incr key, s, r, s' => IncrBy s (.gateway key) r s'
  | .expire key seconds, s, r, s' => ExpireBy s (.gateway key) (1000 * seconds) r s'
  | .pexpire key milliseconds, s, r, s' => ExpireBy s (.gateway key) milliseconds r s'
  | .ttl _, s, _, s' => s' = s
  | .pttl _, s, _, s' => s' = s

/-- The database of the auth service answers in any way. -/
def authEffect : (c : AuthCall) → CounterStore → c.Answer → CounterStore → Prop
  | .redisGet key, s, r, s' => s' = s ∧ (r = .ok (s.live (.auth key)) ∨ ∃ e, r = .error e)
  | .redisSet key v ttl, s, r, s' =>
      s.Confirms () (s.write (.auth key) (some (v, some (s.clock + 1000 * ttl)))) r s'
  | .redisDel keys, s, r, s' => s.Confirms () (s.del (keys.map .auth)) r s'
  | .redisIncr key, s, r, s' => IncrBy s (.auth key) r s'
  | .redisExpire key ttl, s, r, s' => ExpireBy s (.auth key) (1000 * ttl) r s'
  | _, s, _, s' => s' = s

def counterEffect : (c : CounterCall) → CounterStore → c.Answer → CounterStore → Prop
  | .gateway c => gatewayEffect c
  | .auth c => authEffect c

/-- Requests of any kind in any order; meanwhile time passes. -/
def counterServer (env : CounterEnv) :
    Server counterInterface Failure (LimitReply ⊕ AuthReply) CounterRequest CounterStore where
  handler := CounterRequest.handle env
  effect := fun _ _ => counterEffect
  change := fun s s' => s'.entries = s.entries ∧ s.clock ≤ s'.clock

end Store

section Effects

def opens : (c : CounterCall) → c.Answer → Option CounterKey
  | .gateway (.incr key), .ok 1 => some (.gateway key)
  | .auth (.redisIncr key), .ok 1 => some (.auth key)
  | _, _ => none

/-- The counter that a command gives its expiry. -/
def closes : CounterCall → Option CounterKey
  | .gateway (.expire key _) => some (.gateway key)
  | .gateway (.pexpire key _) => some (.gateway key)
  | .auth (.redisExpire key _) => some (.auth key)
  | _ => none

/-- `INCR`, `EXPIRE` or `PEXPIRE` answered with an error. -/
def fails : (c : CounterCall) → c.Answer → Prop
  | .gateway (.incr _), r => ∃ e, r = .error e
  | .gateway (.expire _ _), r => ∃ e, r = .error e
  | .gateway (.pexpire _ _), r => ∃ e, r = .error e
  | .auth (.redisIncr _), r => ∃ e, r = .error e
  | .auth (.redisExpire _ _), r => ∃ e, r = .error e
  | _, _ => False

variable {s s' : CounterStore} {k : CounterKey}

private theorem lasting_incrBy {key : CounterKey} {r : Except Failure ℕ} (h : IncrBy s key r s')
    (hk : s'.Lasting k) : s.Lasting k ∨ (k = key ∧ r = .ok 1) ∨ ∃ e, r = .error e := by
  rcases h with ⟨rfl, rfl⟩ | ⟨hfail, -⟩
  · rcases Cache.lasting_update hk with hk | ⟨rfl, hlive⟩
    · exact Or.inl hk
    · have hcount : count s k = 0 := by
        unfold count
        rw [hlive]
      rw [hcount]
      exact Or.inr (Or.inl ⟨rfl, rfl⟩)
  · exact Or.inr (Or.inr hfail)

private theorem lasting_expireBy {key : CounterKey} {ms : ℕ} {r : Except Failure Unit}
    (h : ExpireBy s key ms r s') (hk : s'.Lasting k) :
    (s.Lasting k ∧ some key ≠ some k) ∨ ∃ e, r = .error e := by
  rcases h with ⟨rfl, rfl⟩ | ⟨hfail, -⟩
  · obtain ⟨hne, hk⟩ := Cache.lasting_expire hk
    left
    refine ⟨hk, ?_⟩
    rintro ⟨⟩
    exact hne rfl
  · exact Or.inr hfail

theorem counterEffect_sound (c : CounterCall) (r : c.Answer) (h : counterEffect c s r s')
    (hk : s'.Lasting k) : (s.Lasting k ∧ closes c ≠ some k) ∨ opens c r = some k ∨ fails c r := by
  have hincr : ∀ key (r : Except Failure ℕ), IncrBy s key r s' →
      s.Lasting k ∨ (k = key ∧ r = .ok 1) ∨ ∃ e, r = .error e := fun key r h => lasting_incrBy h hk
  have hconfirms : ∀ (t : CounterStore) (r : Except Failure Unit), (t.Lasting k → s.Lasting k) →
      s.Confirms () t r s' → s.Lasting k := by
    intro t r ht hc
    rcases hc with ⟨-, rfl⟩ | ⟨-, rfl | rfl⟩
    · exact ht hk
    · exact hk
    · exact ht hk
  cases c with
  | gateway c =>
    cases c with
    | connect | ttl key | pttl key => exact Or.inl ⟨(h : s' = s) ▸ hk, by simp [closes]⟩
    | incr key =>
      rcases hincr _ _ h with hk | ⟨rfl, rfl⟩ | hfail
      · exact Or.inl ⟨hk, by simp [closes]⟩
      · exact Or.inr (Or.inl rfl)
      · exact Or.inr (Or.inr hfail)
    | expire key seconds =>
      rcases lasting_expireBy h hk with hk | hfail
      · exact Or.inl hk
      · exact Or.inr (Or.inr hfail)
    | pexpire key ms =>
      rcases lasting_expireBy h hk with hk | hfail
      · exact Or.inl hk
      · exact Or.inr (Or.inr hfail)
  | auth c =>
    cases c with
    | redisGet key => exact Or.inl ⟨h.1 ▸ hk, by simp [closes]⟩
    | redisSet key v ttl => exact Or.inl ⟨hconfirms _ _ Cache.lasting_put h, by simp [closes]⟩
    | redisDel keys => exact Or.inl ⟨hconfirms _ _ Cache.lasting_del h, by simp [closes]⟩
    | redisIncr key =>
      rcases hincr _ _ h with hk | ⟨rfl, rfl⟩ | hfail
      · exact Or.inl ⟨hk, by simp [closes]⟩
      · exact Or.inr (Or.inl rfl)
      · exact Or.inr (Or.inr hfail)
    | redisExpire key ttl =>
      rcases lasting_expireBy h hk with hk | hfail
      · exact Or.inl hk
      · exact Or.inr (Or.inr hfail)
    | _ => exact Or.inl ⟨(h : s' = s) ▸ hk, by simp [closes]⟩

end Effects

section Handlers

variable {α β : Type}

/-- The next command after an increment that makes a counter gives it its expiry. -/
abbrev GatewayPrompt (p : GatewayProcess α) : Prop :=
  p.Prompt (fun c r => opens (.gateway c) r) fun c => closes (.gateway c)

abbrev AuthPrompt (p : AuthProcess α) : Prop :=
  p.Prompt (fun c r => opens (.auth c) r) fun c => closes (.auth c)

section Gateway

private theorem prompt_ttl (key : String) : GatewayPrompt (ttl key) :=
  Only.prompt (only_request fun _ => rfl)

private theorem prompt_pttl (key : String) : GatewayPrompt (pttl key) :=
  Only.prompt (only_request fun _ => rfl)

private theorem prompt_connect : GatewayPrompt connect :=
  Only.prompt (only_request fun _ => rfl)

private theorem prompt_expire (key : String) (seconds : ℕ) : GatewayPrompt (expire key seconds) :=
  Only.prompt (only_request fun _ => rfl)

private theorem prompt_pexpire (key : String) (ms : ℕ) : GatewayPrompt (pexpire key ms) :=
  Only.prompt (only_request fun _ => rfl)

private theorem prompt_countHit {key : String} {window : GatewayProcess Unit}
    (hwindow : GatewayPrompt window)
    (hkey : window.takesUp (fun c => closes (.gateway c)) = some (.gateway key)) :
    GatewayPrompt (countHit key window) := by
  intro r
  cases r with
  | error e => exact ⟨trivial, fun k hk => by simp [opens] at hk⟩
  | ok n =>
    by_cases hn : n = 1
    · subst hn
      refine ⟨hwindow.bind fun _ => trivial, fun k hk => ?_⟩
      obtain rfl : CounterKey.gateway key = k := by simpa [opens] using hk
      exact takesUp_bind hkey _
    · constructor
      · change GatewayPrompt (if n = 1 then _ else _)
        rw [if_neg hn]
        trivial
      · intro k hk
        simp [opens, hn] at hk

theorem prompt_use (env : GatewayEnv) (req : HttpRequest) : GatewayPrompt (use env req) := by
  unfold use
  split
  · trivial
  · apply Prompt.tryCatch
    · apply prompt_connect.bind
      intro _
      apply (prompt_countHit (prompt_expire _ _) rfl).bind
      intro currentHits
      split
      · exact (prompt_ttl _).bind fun _ => trivial
      · trivial
    · intro e
      split <;> trivial

theorem prompt_increment (key : String) (ttl limit : ℕ) :
    GatewayPrompt (increment key ttl limit) := by
  apply Prompt.tryCatch
  · apply prompt_connect.bind
    intro _
    apply (prompt_countHit (prompt_pexpire _ _) rfl).bind
    intro totalHits
    exact (prompt_pttl _).bind fun _ => trivial
  · intro e
    trivial

theorem prompt_checkTerminalWsRateLimit (env : GatewayEnv) (realIp : Option Access.HeaderValue) :
    GatewayPrompt (checkTerminalWsRateLimit env realIp) := by
  simp only [checkTerminalWsRateLimit]
  split
  · trivial
  · apply Prompt.tryCatch
    · apply (prompt_countHit (prompt_expire _ _) rfl).bind
      intro currentHits
      split
      · exact (prompt_ttl _).bind fun _ => trivial
      · trivial
    · intro e
      trivial

end Gateway

section Auth

variable (env : AuthEnv)

def Uncounted (c : AuthCall) : Prop := ∀ r, opens (.auth c) r = none

private theorem uncounted_of_aside {c : AuthCall} (h : c.Aside) : Uncounted c := by
  intro r
  cases c <;> first | rfl | exact h.elim

private theorem uncounted_connect : ensureRedisConnected.Only Uncounted := only_request fun _ => rfl

private theorem uncounted_randomUUID : randomUUID.Only Uncounted :=
  ⟨fun _ => rfl, fun _ => trivial⟩

private theorem uncounted_generateMfaCode :
    (.call .generateMfaCode .ret : AuthProcess String).Only Uncounted :=
  ⟨fun _ => rfl, fun _ => trivial⟩

private theorem uncounted_del (keys : List RedisKey) : (redisDel keys).Only Uncounted :=
  only_request fun _ => rfl

private theorem prompt_redisExpire (key : RedisKey) (ttl : ℕ) : AuthPrompt (redisExpire key ttl) :=
  Only.prompt (only_request fun _ => rfl)

private theorem prompt_redisIncr {key : RedisKey} {f : ℕ → AuthProcess α}
    (hf : ∀ n, AuthPrompt (f n))
    (hkey : (f 1).takesUp (fun c => closes (.auth c)) = some (.auth key)) :
    AuthPrompt (redisIncr key >>= f) := by
  intro r
  cases r with
  | error e => exact ⟨trivial, fun k hk => by simp [opens] at hk⟩
  | ok n =>
    refine ⟨hf n, fun k hk => ?_⟩
    by_cases hn : n = 1
    · subst hn
      obtain rfl : CounterKey.auth key = k := by simpa [opens] using hk
      exact hkey
    · simp [opens, hn] at hk

private theorem prompt_expireFirst (attempts : ℕ) (key : RedisKey) (ttl : ℕ) :
    AuthPrompt (expireFirst attempts key ttl) := by
  unfold expireFirst
  split
  · exact prompt_redisExpire key ttl
  · trivial

private theorem prompt_lockAccount (email : String) : AuthPrompt (lockAccount env email) := by
  apply prompt_redisIncr
  · intro streak
    apply (prompt_redisExpire _ _).bind
    intro _
    exact Only.prompt (only_bind (only_request fun _ => rfl) fun _ => trivial)
  · rfl

private theorem prompt_registerFailedLogin (email : String) :
    AuthPrompt (registerFailedLogin env email) := by
  apply (Only.prompt uncounted_connect).bind
  intro _
  apply prompt_redisIncr
  · intro attempts
    apply (prompt_expireFirst attempts _ _).bind
    intro _
    split
    · exact prompt_lockAccount env email
    · trivial
  · rfl

private theorem prompt_refuseLogin (email message : String) :
    AuthPrompt (refuseLogin env email message : AuthProcess α) :=
  (prompt_registerFailedLogin env email).bind fun _ => trivial

private theorem uncounted_assertNotLocked (email : String) :
    (assertNotLocked env email).Only Uncounted := by
  apply only_bind uncounted_connect
  intro _
  apply only_bind (only_request fun _ => rfl)
  intro ttl
  split <;> trivial

private theorem uncounted_assertCaptchaIfNeeded (email : String) (captchaToken : Option String) :
    (assertCaptchaIfNeeded env email captchaToken).Only Uncounted := by
  apply only_bind
  · unfold isCaptchaRequired
    split
    · trivial
    · apply only_bind uncounted_connect
      intro _
      apply only_bind (only_request fun _ => rfl)
      intro value
      split <;> trivial
  · intro required
    split
    · dsimp only
      split
      · trivial
      · split <;> trivial
    · trivial

private theorem uncounted_afterPassword (email : String) (user : AuthUser) (req : RequestInfo) :
    (afterPassword env email user req).Only Uncounted := by
  apply only_bind
  · exact only_bind uncounted_connect fun _ => uncounted_del _
  intro _
  apply only_bind
  · exact only_tryCatch (only_request fun _ => rfl) fun _ => trivial
  intro _
  apply only_bind
  · unfold evaluateLoginAnomaly
    apply only_bind
    · apply only_bind uncounted_connect
      intro _
      apply only_bind (only_request fun _ => rfl)
      intro value
      split
      · split <;> trivial
      · trivial
    · intro previous
      split
      · trivial
      · exact only_bind ⟨fun _ => rfl, fun _ => trivial⟩ fun _ => trivial
  · intro detected
    split <;> trivial

private theorem prompt_authenticate (dto : LoginDto) (req : RequestInfo) :
    AuthPrompt (authenticate env dto req) := by
  apply (Only.prompt (uncounted_assertNotLocked env _)).bind
  intro _
  apply (Only.prompt (uncounted_assertCaptchaIfNeeded env _ _)).bind
  intro _
  apply (Only.prompt (only_request fun _ => rfl)).bind
  intro found
  split
  · exact prompt_refuseLogin env _ _
  · split
    · exact prompt_refuseLogin env _ _
    · split
      · exact prompt_refuseLogin env _ _
      · exact Only.prompt (uncounted_afterPassword env _ _ _)

private theorem uncounted_storeChallenge (payload : MfaChallengePayload) :
    (storeChallenge env payload).Only Uncounted := by
  apply only_bind uncounted_connect
  intro _
  apply only_bind uncounted_randomUUID
  intro challengeId
  exact only_bind (only_request fun _ => rfl) fun _ => trivial

private theorem uncounted_openSession (user : AuthUser) (req : RequestInfo)
    (rememberMe : Option Bool) : (openSession env user req rememberMe).Only Uncounted :=
  (aside_openSession env user req rememberMe).mono fun _ => uncounted_of_aside

theorem prompt_login (dto : LoginDto) (req : RequestInfo) :
    AuthPrompt (AuthService.login env dto req) := by
  apply (prompt_authenticate env dto req).bind
  intro user
  apply Only.prompt
  split
  · exact only_bind (uncounted_storeChallenge env _) fun _ => trivial
  · split
    · split
      · trivial
      · apply only_bind uncounted_generateMfaCode
        intro code
        exact only_bind (uncounted_storeChallenge env _) fun _ => trivial
    · exact uncounted_openSession env user req none

private theorem prompt_rejectCode (challengeId : String) :
    AuthPrompt (rejectCode env challengeId) := by
  apply prompt_redisIncr
  · intro attempts
    apply (prompt_expireFirst attempts _ _).bind
    intro _
    split
    · exact Only.prompt (only_bind (uncounted_del _) fun _ => trivial)
    · trivial
  · rfl

theorem prompt_verifyAdminMfa (challengeId code : String) (req : RequestInfo) :
    AuthPrompt (AuthService.verifyAdminMfa env challengeId code req) := by
  apply (Only.prompt uncounted_connect).bind
  intro _
  apply (Only.prompt (only_request fun _ => rfl)).bind
  intro raw
  split
  · split
    · exact Only.prompt (only_bind (uncounted_del _) fun _ => trivial)
    · apply (Only.prompt (only_request fun _ => rfl)).bind
      intro found
      split
      · trivial
      · split
        · trivial
        · apply (Only.prompt ((aside_checkCode env _ _ _).mono fun _ => uncounted_of_aside)).bind
          intro isValidCode
          split
          · apply Only.prompt
            exact only_bind (uncounted_del _) fun _ => uncounted_openSession env _ _ _
          · exact prompt_rejectCode env challengeId
  · trivial

end Auth

private theorem prompt_ofGateway {p : GatewayProcess α} (h : GatewayPrompt p) :
    (ofGateway p).Prompt opens closes := h.lift (fun _ _ => rfl) fun _ => rfl

private theorem prompt_ofAuth {p : AuthProcess α} (h : AuthPrompt p) :
    (ofAuth p).Prompt opens closes := h.lift (fun _ _ => rfl) fun _ => rfl

theorem prompt_handle (env : CounterEnv) (q : CounterRequest) :
    (q.handle env).Prompt opens closes := by
  cases q with
  | http req => exact (prompt_ofGateway (prompt_use env.gateway req)).bind fun _ => trivial
  | throttle key ttl limit =>
    exact (prompt_ofGateway (prompt_increment key ttl limit)).bind fun _ => trivial
  | terminalUpgrade realIp =>
    have hcheck := prompt_checkTerminalWsRateLimit env.gateway realIp
    exact (prompt_ofGateway hcheck).bind fun _ => trivial
  | login dto req => exact (prompt_ofAuth (prompt_login env.auth dto req)).bind fun _ => trivial
  | verifyAdminMfa challengeId code req =>
    have hverify := prompt_verifyAdminMfa env.auth challengeId code req
    exact (prompt_ofAuth hverify).bind fun _ => trivial

end Handlers

section Runs

abbrev CounterStage :=
  Stage counterInterface Failure (LimitReply ⊕ AuthReply) CounterRequest CounterStore

abbrev CounterTrace := List (StageLabel counterInterface CounterRequest × CounterStage)

variable (env : CounterEnv)

/-- A counter without expiry is left to the command that gives it one. -/
def counterFollowUps : (counterServer env).FollowUps CounterKey where
  left := fun s key => s.Lasting key
  opens := opens
  closes := closes
  fails := fails
  prompt := prompt_handle env
  sound := fun _ _ c _ r _ _ h hk => counterEffect_sound c r h hk
  change := by
    rintro s s' key ⟨hentries, -⟩ ⟨v, hv⟩
    exact ⟨v, by rw [← hentries, hv]⟩

/-- A failed command or the end of a request leaves a counter without expiry, and no request sends
the command that is missing. -/
abbrev Abandons : CounterStage → StageLabel counterInterface CounterRequest → CounterStage → Prop :=
  (counterFollowUps env).Abandons

variable {env} {s : CounterStore} {trace : CounterTrace} {y : CounterStage}

private theorem orderly_start (hs : ∀ key, ¬ s.Lasting key) :
    (counterFollowUps env).Orderly ⟨s, []⟩ :=
  ⟨by simp, fun key hkey => absurd hkey (hs key)⟩

/-- Every counter without expiry has the command on its way, exactly in the runs that abandon
none. -/
theorem counters_attended_iff (hs : ∀ key, ¬ s.Lasting key)
    (h : Run (counterServer env).Step ⟨s, []⟩ trace y) :
    (∀ e ∈ trace, (counterFollowUps env).Attended e.2) ↔
      ¬ Sometime (Abandons env) ⟨s, []⟩ trace := by
  rw [← (counterFollowUps env).orderly_iff h (orderly_start hs)]
  constructor
  · intro hall e he
    obtain ⟨x, hx, hstep⟩ := h.entry (J := fun x => ∀ task ∈ x.tasks, task.rest.Prompt opens closes)
      (by simp) (counterFollowUps env).prompt_step he
    exact ⟨(counterFollowUps env).prompt_step x _ _ hx hstep, hall e he⟩
  · intro hall e he
    exact (hall e he).2

/-- When no request is under way, every entry has an expiry, and from then on it counts for
nothing. -/
theorem counters_expire (hs : ∀ key, ¬ s.Lasting key)
    (h : Run (counterServer env).Step ⟨s, []⟩ trace y)
    (hno : ¬ Sometime (Abandons env) ⟨s, []⟩ trace) :
    ∀ e ∈ trace, (∀ task ∈ e.2.tasks, ¬ task.Live) → ∀ key v deadline,
      e.2.state.entries key = some (v, deadline) → ∃ expiresAt, deadline = some expiresAt ∧
        ∀ later : CounterStore, later.entries = e.2.state.entries → expiresAt ≤ later.clock →
          count later key = 0 := by
  intro e he hrest key v deadline hentry
  have hattended := (counters_attended_iff hs h).mpr hno e he
  cases deadline with
  | none => exact absurd ⟨v, hentry⟩ (hattended.settled hrest key)
  | some expiresAt =>
    refine ⟨expiresAt, rfl, ?_⟩
    intro later hlater hclock
    have hgone : later.live key = none := Cache.live_eq_none (by rw [hlater, hentry]) hclock
    unfold count
    rw [hgone]

section Attempt

def noEntries : CounterStore := ⟨fun _ => none, 0⟩

private theorem noEntries_lasting (key : CounterKey) : ¬ noEntries.Lasting key := by
  rintro ⟨v, hv⟩
  cases hv

def loginAttempt : HttpRequest := ⟨"POST", "/api/auth/login", some "203.0.113.7", none⟩

def loginCounter : String := rateLimitKey "auth-login" (getClientIp loginAttempt)

/-- The commands of the limiter for the first attempt of a window. -/
theorem loginAttempt_commands (env : CounterEnv) :
    ∃ k₁, (CounterRequest.http loginAttempt).handle env = .call (.gateway .connect) k₁ ∧
      ∃ k₂, k₁ (.ok ()) = .call (.gateway (.incr loginCounter)) k₂ ∧
        ∃ k₃, k₂ (.ok 1) = .call (.gateway (.expire loginCounter 60)) k₃ ∧
          k₃ (.ok ()) = .ret (.inl .next) := by
  have hrule : resolveRule loginAttempt.method loginAttempt.path = some authLogin :=
    resolveRule_address .login
  have huse : use env.gateway loginAttempt = tryCatch (do
      connect
      let currentHits ← countHit loginCounter (expire loginCounter 60)
      if 10 < currentHits then
        let left ← ttl loginCounter
        pure (.tooManyRequests (max 1 left))
      else pure .next)
      fun _ => if env.gateway.failOpen then pure .next else pure .unavailable := by
    unfold use
    rw [hrule]
    rfl
  rw [CounterRequest.handle, huse]
  exact ⟨_, rfl, _, rfl, _, rfl, rfl⟩

private theorem quiet_begin {x y : CounterStage} {q : CounterRequest} :
    ¬ Abandons env x (.begin q) y := by
  rintro ⟨-, h | ⟨i, c, r, h, -⟩⟩ <;> cases h

private theorem quiet_act {x y : CounterStage} {i : ℕ} {c : CounterCall} {r : c.Answer}
    (hr : ¬ fails c r) : ¬ Abandons env x (.act i c r) y := by
  rintro ⟨-, h | ⟨j, d, t, h, hfail⟩⟩
  · cases h
  · cases h
    exact hr hfail

end Attempt

/-- A login that is counted, in a run that abandons nothing. -/
theorem counters_expire_login : ∃ (trace : CounterTrace) (y : CounterStage),
    Run (counterServer ⟨{}, AuthEnv.sample⟩).Step ⟨noEntries, []⟩ trace y ∧
      y.state.entries (.gateway loginCounter) = some (.counter 1, some 60000) ∧
      ∀ e ∈ trace, (∀ task ∈ e.2.tasks, ¬ task.Live) → ∀ key v deadline,
        e.2.state.entries key = some (v, deadline) → ∃ expiresAt, deadline = some expiresAt ∧
          ∀ later : CounterStore, later.entries = e.2.state.entries → expiresAt ≤ later.clock →
            count later key = 0 := by
  obtain ⟨k₁, h₁, k₂, h₂, k₃, h₃, -⟩ := loginAttempt_commands ⟨{}, AuthEnv.sample⟩
  obtain ⟨trace, y, hrun, hno, hy⟩ : ∃ (trace : CounterTrace) (y : CounterStage),
      Run (counterServer ⟨{}, AuthEnv.sample⟩).Step ⟨noEntries, []⟩ trace y ∧
        ¬ Sometime (Abandons ⟨{}, AuthEnv.sample⟩) ⟨noEntries, []⟩ trace ∧
        y.state.entries (.gateway loginCounter) = some (.counter 1, some 60000) := by
    apply Reaches.never
    apply Reaches.next ⟨.begin (.http loginAttempt), quiet_begin⟩
    apply Reaches.next ⟨Server.Step.act_last h₁ rfl, quiet_act (by simp [fails])⟩
    apply Reaches.next ⟨Server.Step.act_last h₂ (Or.inl ⟨rfl, rfl⟩), quiet_act (by simp [fails])⟩
    apply Reaches.next ⟨Server.Step.act_last h₃ (Or.inl ⟨rfl, rfl⟩), quiet_act (by simp [fails])⟩
    exact Reaches.here rfl
  exact ⟨trace, y, hrun, hy, counters_expire noEntries_lasting hrun hno⟩

/-- The gateway stops between the two commands for a login: the counter is never gone. -/
theorem stopped_before_expire : ∃ (trace : CounterTrace) (y : CounterStage),
    Run (counterServer ⟨{}, AuthEnv.sample⟩).Step ⟨noEntries, []⟩ trace y ∧
      (∀ task ∈ y.tasks, ¬ task.Live) ∧
      y.state.entries (.gateway loginCounter) = some (.counter 1, none) := by
  obtain ⟨k₁, h₁, k₂, h₂, k₃, h₃, -⟩ := loginAttempt_commands ⟨{}, AuthEnv.sample⟩
  apply Reaches.next (.begin (.http loginAttempt))
  apply Reaches.next (Server.Step.act_last h₁ rfl)
  apply Reaches.next (Server.Step.act_last h₂ (Or.inl ⟨rfl, rfl⟩))
  apply Reaches.next
  · apply Server.Step.crash (i := 0) ⟨.connection, "stopped"⟩
    · rfl
    · exact ⟨_, _, h₃⟩
  refine Reaches.here ⟨?_, rfl⟩
  intro task htask
  obtain rfl := List.mem_singleton.mp htask
  exact Task.not_live_raise

end Runs

end CloudVM.Limits
