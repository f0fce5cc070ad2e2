import CloudVM.Auth.Evidence

/-!
# The second factor

An account is gated when it has TOTP enabled, or is an administrator's while admin MFA is on.
A refresh token is verified when it was issued by `verifyAdminMfa` after a code for the user's
challenge was accepted, or by a refresh of a verified token. Gated accounts get only verified
tokens, provided that Google logins find no gated account and that no account becomes gated
while a session without the second factor is open or being opened.
-/

namespace CloudVM

open AuthStore Process AuthService

def AuthUser.Gated (env : AuthEnv) (u : AuthUser) : Prop :=
  (u.mfaEnabled = true ∧ u.mfaSecret ≠ none) ∨ (u.role = .admin ∧ env.adminMfaEnabled = true)

def GatedIn (env : AuthEnv) (s : AuthStore) (userId : String) : Prop :=
  ∃ u ∈ s.users.rows, u.id = userId ∧ u.Gated env

namespace SecondFactor

/-- The store, and which refresh tokens are verified. -/
structure AuthState where
  store : AuthStore
  verified : RefreshPayload → Prop

/-- A request that may open a session of a gated account: it has accepted a code of the user, or
it refreshes a verified token. -/
def Trusted (env : AuthEnv) (q : AuthRequest × RequestInfo) (log : AuthLog)
    (verified : RefreshPayload → Prop) (userId : String) : Prop :=
  Accepted env q log userId ∨ ∃ t, q.1 = .refresh (.signed t) ∧ verified t

/-- The service; a token that a trusted request stores is verified from then on. -/
def gateServer (env : AuthEnv) :
    Server authInterface Failure AuthReply (AuthRequest × RequestInfo) AuthState where
  handler := AuthRequest.handle env
  effect := fun q log c x r x' => (authServer env).effect q log c x.store r x'.store ∧
    x'.verified = fun t => x.verified t ∨
      ∃ userId expiresAt, c = AuthCall.createRefreshToken t userId expiresAt ∧
        Trusted env q log x.verified userId
  change := fun x x' => (authServer env).change x.store x'.store ∧ x'.verified = x.verified

section Store

variable {env : AuthEnv} {s s' : AuthStore}

theorem fits_of_mayServe {c : AuthCall} {r : c.Answer} (h : mayServe c s r s') : Fits c r := by
  cases c with
  | findUserById userId =>
    intro user hr
    subst hr
    rcases h with ⟨hr, -⟩ | ⟨⟨e, hfail⟩, -⟩
    · exact (s.users.find?_eq_some.mp (Except.ok.inj hr).symm).2
    · cases hfail
  | setGoogleId userId googleId =>
    intro user hr
    subst hr
    rcases h with (⟨-, ⟨e, hr⟩, -⟩ | ⟨u, hu, -, hr, -⟩) | ⟨⟨e, hfail⟩, -⟩
    · cases hr
    · cases hr
      exact (s.users.find?_eq_some.mp hu).2
    · cases hfail
  | _ => trivial

/-- An account with an ungated row is not gated: ids are unique. -/
theorem not_gatedIn {u : AuthUser} (hu : u ∈ s.users.rows) (h : ¬ u.Gated env) :
    ¬ GatedIn env s u.id := by
  intro hg
  obtain ⟨v, hv, hid, hgated⟩ := hg
  rw [s.users.eq_of_key_eq hv hu hid] at hgated
  exact h hgated

private theorem gatedIn_modifyUser {userId : String} {f : AuthUser → AuthUser}
    {hid : ∀ u, (f u).id = u.id} {hsecret : ∀ u, (f u).mfaSecret = u.mfaSecret}
    {w : String} (h : GatedIn env (s.modifyUser userId f hid hsecret) w)
    (hf : ∀ u, (f u).Gated env → u.Gated env) : GatedIn env s w := by
  obtain ⟨v, hv, rfl, hgated⟩ := h
  obtain ⟨u, hu, rfl⟩ := (Table.mem_modify _ _ _ hid _).mp hv
  refine ⟨u, hu, ?_, ?_⟩
  · split
    · exact (hid u).symm
    · rfl
  · split at hgated
    · exact hf u hgated
    · exact hgated

private theorem gatedIn_of_users (hu : s'.users = s.users) {w : String}
    (h : GatedIn env s' w) : GatedIn env s w := by
  unfold GatedIn at h ⊢
  rw [hu] at h
  exact h

theorem not_gated_toUser (d : NewUser) (id : String) : ¬ (d.toUser id).Gated env := by
  simp [NewUser.toUser, AuthUser.Gated]

theorem gatedIn_of_serve {c : AuthCall} {r : c.Answer} (h : serve c s r s') {w : String}
    (hg : GatedIn env s' w) : GatedIn env s w := by
  cases c with
  | createUser d =>
    rcases h with ⟨-, -, rfl⟩ | ⟨-, id, hid, hvalid, -, rfl⟩
    · exact hg
    · obtain ⟨v, hv, hw, hgated⟩ := hg
      rcases List.mem_append.mp hv with hv | hv
      · exact ⟨v, hv, hw, hgated⟩
      · obtain rfl := List.mem_singleton.mp hv
        exact (not_gated_toUser d id hgated).elim
  | setGoogleId userId googleId =>
    rcases h with ⟨-, -, rfl⟩ | ⟨u, -, -, -, rfl⟩
    · exact hg
    · exact gatedIn_modifyUser hg fun _ h => h
  | setRecoveryHashes userId hashes =>
    rcases h with ⟨-, -, rfl⟩ | ⟨-, -, rfl⟩
    · exact hg
    · exact gatedIn_modifyUser hg fun _ h => h
  | now | redisConnect | redisTtl | redisExpire | findUserByEmail | findUserById | redisSet |
    redisDel | findRefreshToken | deleteTokensOf | deleteTokenRow =>
    obtain ⟨-, rfl⟩ := h
    exact gatedIn_of_users rfl hg
  | generateMfaCode | bcryptHash | syncUserProjection | logMfaAudit =>
    obtain rfl := h
    exact hg
  | randomUUID =>
    obtain ⟨-, -, rfl⟩ := h
    exact gatedIn_of_users rfl hg
  | redisGet key =>
    rcases h.2 with rfl | rfl
    · exact hg
    · exact gatedIn_of_users rfl hg
  | redisIncr key =>
    obtain ⟨n, -, -, rfl⟩ := h
    exact gatedIn_of_users rfl hg
  | createRefreshToken token userId expiresAt =>
    rcases h with ⟨-, -, rfl⟩ | ⟨id, hid, htoken, howner, -, rfl⟩
    · exact hg
    · exact gatedIn_of_users rfl hg
  | deleteToken token =>
    rcases h with ⟨-, -, rfl⟩ | ⟨-, -, rfl⟩
    · exact hg
    · exact gatedIn_of_users rfl hg

theorem gatedIn_of_mayServe {c : AuthCall} {r : c.Answer} (h : mayServe c s r s') {w : String}
    (hg : GatedIn env s' w) : GatedIn env s w := by
  rcases h with h | ⟨-, rfl | ⟨r', h⟩⟩
  · exact gatedIn_of_serve h hg
  · exact hg
  · exact gatedIn_of_serve h hg

theorem PassesLogin.not_gated {u : AuthUser} (h : PassesLogin env u) (hv : u.Valid) :
    ¬ u.Gated env := by
  obtain ⟨htotp, hadmin⟩ := h
  intro hg
  rcases hg with ⟨he, hs⟩ | ⟨hr, he⟩
  · obtain ⟨secret, hsecret⟩ := Option.ne_none_iff_exists'.mp hs
    have hne : secret ≠ "" := fun h0 => hv.2 (h0 ▸ hsecret)
    simp [hasTotp, he, hsecret, hne] at htotp
  · simp [hr, he] at hadmin

end Store

def contract (env : AuthEnv) : (gateServer env).Contract where
  fits := Fits
  permits := Permitted env
  returns := fun _ _ _ => True
  sound := fun _ _ _ _ _ _ h => fits_of_mayServe h.1
  holds := by
    intro q
    obtain ⟨request, req⟩ := q
    have hsafe : Safe env (request, req) (AuthRequest.handle env (request, req)) [] := by
      cases request with
      | register dto => exact safe_register env dto
      | login dto => exact safe_login env dto
      | google profile => exact safe_google env profile
      | verifyAdminMfa challengeId code => exact safe_verifyAdminMfa env challengeId code
      | refresh token => exact safe_refresh env token
      | logout token => exact safe_logout env token
      | logoutAll userId => exact safe_logoutAll env userId
    apply hsafe.mono
    intro out log _
    cases out <;> trivial

abbrev GateStage := Stage authInterface Failure AuthReply (AuthRequest × RequestInfo) AuthState

/-- The account has no refresh token without the second factor, and no request that is under way
will store one. -/
def Settled (env : AuthEnv) (x : GateStage) (userId : String) : Prop :=
  (∀ row ∈ x.state.store.tokens.rows, row.userId = userId → x.state.verified row.token) ∧
  ∀ task ∈ x.tasks, task.Live → Vouched env task.log userId task.request.1 →
    ∃ t, task.request.1 = .refresh (.signed t) ∧ x.state.verified t

/-- The account that a Google login finds is not gated, and an account becomes gated only when
it is settled. -/
structure Careful (env : AuthEnv) (x : GateStage) (l : AuthLabel) (y : GateStage) : Prop where
  google : ∀ (i : Nat) task profile email user, x.tasks[i]? = some task →
    task.request.1 = .google profile →
    l = .act i (AuthCall.findUserByEmail email) (.ok (some user)) → ¬ user.Gated env
  enrols : l = .change → ∀ userId, GatedIn env y.state.store userId →
    GatedIn env x.state.store userId ∨ Settled env x userId

section Invariant

variable {env : AuthEnv}

/-- What is stored for a gated account is verified, and what is on its way will be. -/
structure Guarded (env : AuthEnv) (x : GateStage) : Prop where
  tokens : ∀ row ∈ x.state.store.tokens.rows,
    GatedIn env x.state.store row.userId → x.state.verified row.token
  tasks : ∀ task ∈ x.tasks, task.Live → ∀ userId, Vouched env task.log userId task.request.1 →
    GatedIn env x.state.store userId →
      ∃ t, task.request.1 = .refresh (.signed t) ∧ x.state.verified t

variable {x x' : AuthState} {tasks : List AuthTask} {i : Nat} {q : AuthRequest × RequestInfo}
  {log : AuthLog} {c : AuthCall} {k : c.Answer → AuthProcess AuthReply} {r : c.Answer}

private theorem vouched_now (hx : Guarded env ⟨x, tasks⟩)
    (hi : tasks[i]? = some ⟨q, log, .call c k⟩) (he : mayServe c x.store r x'.store)
    (hc : ∀ profile email user, q.1 = .google profile →
      (⟨c, r⟩ : Event authInterface) = ⟨AuthCall.findUserByEmail email, .ok (some user)⟩ →
        ¬ user.Gated env)
    {userId : String} (hv : Vouched env (log ++ [⟨c, r⟩]) userId q.1)
    (hg : GatedIn env x'.store userId) :
    ∃ t, q.1 = .refresh (.signed t) ∧ x.verified t := by
  have hgs : GatedIn env x.store userId := gatedIn_of_mayServe he hg
  have hold : Vouched env log userId q.1 → ∃ t, q.1 = .refresh (.signed t) ∧ x.verified t :=
    fun hv => hx.tasks _ (List.mem_of_getElem? hi) ⟨c, k, rfl⟩ userId hv hgs
  have hsplit : ∀ {c' : AuthCall} {r' : c'.Answer}, Saw (log ++ [⟨c, r⟩]) c' r' →
      Saw log c' r' ∨ mayServe c' x.store r' x'.store ∧
        (⟨c, r⟩ : Event authInterface) = ⟨c', r'⟩ := by
    intro c' r' hsaw
    rcases List.mem_append.mp hsaw with hsaw | hsaw
    · exact .inl hsaw
    · obtain ⟨rfl, hr⟩ := Sigma.mk.inj (List.mem_singleton.mp hsaw)
      obtain rfl := eq_of_heq hr
      exact .inr ⟨he, rfl⟩
  have hnew : ∀ {d : NewUser} {user : AuthUser}, mayServe (.createUser d) x.store (.ok user)
      x'.store → user.id = userId → False := by
    intro d user hs hid
    obtain ⟨hu, id, rfl⟩ := newUser_of_mayServe hs
    exact not_gatedIn hu (not_gated_toUser d id) (hid ▸ hg)
  obtain ⟨request, req⟩ := q
  cases hv with
  | registered h hid =>
    rcases hsplit h with h | ⟨hs, -⟩
    · exact hold (.registered h hid)
    · exact (hnew hs hid).elim
  | password h hid hp =>
    rcases hsplit h with h | ⟨hs, -⟩
    · exact hold (.password h hid hp)
    · obtain ⟨-, hu⟩ := user_of_mayServe hs
      exact (not_gatedIn hu (hp.not_gated (x.store.valid _ hu)) (hid ▸ hgs)).elim
  | google h hid =>
    rcases hsplit h with h | ⟨hs, hev⟩
    · exact hold (.google h hid)
    · obtain ⟨-, hu⟩ := user_of_mayServe hs
      exact (not_gatedIn hu (hc _ _ _ rfl hev) (hid ▸ hgs)).elim
  | googleNew h hid =>
    rcases hsplit h with h | ⟨hs, -⟩
    · exact hold (.googleNew h hid)
    · exact (hnew hs hid).elim
  | @token t row user h hid =>
    rcases hsplit h with h | ⟨hs, -⟩
    · exact hold (.token h hid)
    · obtain ⟨-, hrow, hrt, hfind⟩ := lookup_of_mayServe hs
      have huser : user.id = row.userId := (x.store.users.find?_eq_some.mp hfind).2
      have hverified := hx.tokens row hrow (huser ▸ hid ▸ hgs)
      exact ⟨t, rfl, hrt ▸ hverified⟩

private theorem guarded_act (hx : Guarded env ⟨x, tasks⟩)
    (hk : ∀ task ∈ tasks, (contract env).Kept task)
    (hi : tasks[i]? = some ⟨q, log, .call c k⟩) (he : (gateServer env).effect q log c x r x')
    (hc : ∀ profile email user, q.1 = .google profile →
      (⟨c, r⟩ : Event authInterface) = ⟨AuthCall.findUserByEmail email, .ok (some user)⟩ →
        ¬ user.Gated env) :
    Guarded env ⟨x', tasks.set i ⟨q, log ++ [⟨c, r⟩], k r⟩⟩ := by
  obtain ⟨hserve, hverified⟩ := he
  have hm : ⟨q, log, .call c k⟩ ∈ tasks := List.mem_of_getElem? hi
  have hmono : ∀ t, x.verified t → x'.verified t := by
    intro t ht
    rw [hverified]
    exact .inl ht
  constructor
  · intro row hrow hg
    rcases (grows_of_mayServe hserve).2 row hrow with hold | ⟨e, rfl⟩
    · exact hmono _ (hx.tokens row hold (gatedIn_of_mayServe hserve hg))
    · change x'.verified row.token
      rw [hverified]
      refine .inr ⟨_, _, rfl, ?_⟩
      have hp : Permitted env q log (.createRefreshToken row.token row.userId e) := (hk _ hm).1
      rcases hp _ _ _ rfl with hv | hacc
      · exact .inr (hx.tasks _ hm ⟨.createRefreshToken _ _ e, k, rfl⟩ _ hv
          (gatedIn_of_mayServe hserve hg))
      · exact .inl hacc
  · intro task htask hlive userId hv hg
    rcases List.mem_or_eq_of_mem_set htask with htask | rfl
    · obtain ⟨t, hq, ht⟩ := hx.tasks task htask hlive userId hv (gatedIn_of_mayServe hserve hg)
      exact ⟨t, hq, hmono t ht⟩
    · obtain ⟨t, hq, ht⟩ := vouched_now hx hi hserve hc hv hg
      exact ⟨t, hq, hmono t ht⟩

/-- A step of the service that meets the two conditions. -/
def CarefulStep (env : AuthEnv) (x : GateStage) (l : AuthLabel) (y : GateStage) : Prop :=
  (gateServer env).Step x l y ∧ Careful env x l y

private theorem guarded_step (x : GateStage) (l : AuthLabel) (y : GateStage)
    (hx : Guarded env x ∧ ∀ task ∈ x.tasks, (contract env).Kept task)
    (h : CarefulStep env x l y) :
    Guarded env y ∧ ∀ task ∈ y.tasks, (contract env).Kept task := by
  obtain ⟨hstep, hcareful⟩ := h
  refine ⟨?_, (contract env).kept_step x l y hx.2 hstep⟩
  obtain ⟨hguarded, hkept⟩ := hx
  cases hstep with
  | begin q =>
    refine ⟨hguarded.tokens, fun task htask hlive userId hv hg => ?_⟩
    rcases List.mem_append.mp htask with htask | htask
    · exact hguarded.tasks task htask hlive userId hv hg
    · obtain rfl := List.mem_singleton.mp htask
      obtain ⟨request, req⟩ := q
      cases hv with
      | registered h _ | password h _ _ | google h _ | googleNew h _ | token h _ =>
        exact (List.not_mem_nil h).elim
  | @act s s' tasks i q log c k r hi he =>
    apply guarded_act hguarded hkept hi he
    intro profile email user hq hev
    obtain ⟨rfl, hr⟩ := Sigma.mk.inj hev
    obtain rfl := eq_of_heq hr
    exact hcareful.google i _ profile email user hi hq rfl
  | @crash s tasks i task e hi hl =>
    refine ⟨hguarded.tokens, fun task' htask hlive userId hv hg => ?_⟩
    rcases List.mem_or_eq_of_mem_set htask with htask | rfl
    · exact hguarded.tasks task' htask hlive userId hv hg
    · exact (Task.not_live_raise hlive).elim
  | @change s s' tasks hc =>
    obtain ⟨hpasses, hverified⟩ := hc
    constructor
    · intro row hrow hg
      change s'.verified row.token
      rw [hverified]
      have hrow' : row ∈ s.store.tokens.rows := by
        rw [← hpasses.tokens]
        exact hrow
      rcases hcareful.enrols rfl _ hg with hold | hsettled
      · exact hguarded.tokens row hrow' hold
      · exact hsettled.1 row hrow' rfl
    · intro task htask hlive userId hv hg
      change ∃ t, _ ∧ s'.verified t
      rw [hverified]
      rcases hcareful.enrols rfl _ hg with hold | hsettled
      · exact hguarded.tasks task htask hlive userId hv hold
      · exact hsettled.2 task htask hlive hv

def start (users : Table AuthUser.id) (valid : ∀ u ∈ users.rows, u.Valid) (clock : Nat) :
    GateStage := ⟨⟨AuthStore.initial users valid clock, fun _ => False⟩, []⟩

/-- The request at a place is trusted to open a session for the user. -/
def TrustedAt (env : AuthEnv) (x : GateStage) (i : Nat) (userId : String) : Prop :=
  ∃ task, x.tasks[i]? = some task ∧
    Trusted env task.request task.log x.state.verified userId

/-- In every careful run, whenever a request stores a refresh token for an account that is gated
at that moment, it has accepted a code of that user or refreshes a verified token. -/
theorem no_session_without_second_factor {users : Table AuthUser.id}
    {valid : ∀ u ∈ users.rows, u.Valid} {clock : Nat}
    {trace : List (AuthLabel × GateStage)} {x y : GateStage}
    (h : Run (CarefulStep env) (start users valid clock) trace x) {i : Nat} {t : RefreshPayload}
    {userId : String} {expiresAt : Nat}
    {r : (AuthCall.createRefreshToken t userId expiresAt).Answer}
    (hs : (gateServer env).Step x
      (.act i (AuthCall.createRefreshToken t userId expiresAt) r) y)
    (hg : GatedIn env x.state.store userId) : TrustedAt env x i userId := by
  have hstart : Guarded env (start users valid clock) :=
    ⟨by simp [start, AuthStore.initial], by simp [start]⟩
  obtain ⟨hguarded, hkept⟩ := h.invariant ⟨hstart, by simp [start]⟩ guarded_step
  obtain ⟨q, log, k, hi⟩ := hs.act_inv
  have hm := List.mem_of_getElem? hi
  have hp : Permitted env q log (.createRefreshToken t userId expiresAt) := (hkept _ hm).1
  refine ⟨_, hi, ?_⟩
  rcases hp _ _ _ rfl with hv | hacc
  · exact .inr (hguarded.tasks _ hm ⟨.createRefreshToken _ _ _, k, rfl⟩ userId hv hg)
  · exact .inl hacc

end Invariant

section Sample

private def enrolled : AuthUser :=
  { id := "u", email := "a@b.c", password := "hash of pw", firstName := "A", lastName := "B"
    mfaEnabled := true, mfaSecret := some "S" }

private def linked : AuthUser := { enrolled with googleId := some "g" }

private def client : RequestInfo := ⟨"f", "1.2.3.4", "agent", none⟩

private def challenge : MfaChallengePayload := ⟨"u", "a@b.c", "f", false, .totp, none⟩

private def sampleStart : GateStage :=
  start ⟨[enrolled], by decide⟩ (by simp [enrolled, AuthUser.Valid]) 100

variable {x : AuthState} {s' : AuthStore} {tasks : List AuthTask} {i : Nat}
  {q : AuthRequest × RequestInfo} {log : AuthLog} {c : AuthCall}
  {k : c.Answer → AuthProcess AuthReply} {r : c.Answer}

private theorem gate_act (ht : tasks[i]? = some ⟨q, log, .call c k⟩)
    (he : mayServe c x.store r s') (hc : c.StoresNothing) :
    (gateServer .sample).Step ⟨x, tasks⟩ (.act i c r)
      ⟨⟨s', x.verified⟩, tasks.set i ⟨q, log ++ [⟨c, r⟩], k r⟩⟩ := by
  refine .act ht ⟨he, ?_⟩
  funext t
  apply propext
  constructor
  · exact .inl
  · intro ht
    rcases ht with ht | ⟨u, e, hstore, -⟩
    · exact ht
    · exact (hc t u e hstore).elim

/-- A Google login opens a session for an account with TOTP and asks for no code. -/
theorem google_skips_second_factor :
    Reaches (gateServer .sample).Step sampleStart fun x => ∃ i t userId expiresAt r y,
      (gateServer .sample).Step x (.act i (AuthCall.createRefreshToken t userId expiresAt) r) y ∧
      GatedIn .sample x.state.store userId ∧ ¬ TrustedAt .sample x i userId := by
  apply Reaches.next (.begin (.google ⟨"g", some "a@b.c", none, none, none⟩, client))
  apply Reaches.next (gate_act (i := 0) (c := .findUserByEmail "a@b.c") (r := .ok (some enrolled)) rfl (.inl ⟨rfl, rfl⟩)
    (by simp [AuthCall.StoresNothing]))
  apply Reaches.next (gate_act (i := 0) (c := .setGoogleId "u" "g") (r := .ok linked) rfl (.inl (.inr ⟨enrolled, rfl, by decide, rfl, rfl⟩))
    (by simp [AuthCall.StoresNothing]))
  apply Reaches.next (gate_act (i := 0) (c := .syncUserProjection linked) (r := .ok ()) rfl (.inl rfl)
    (by simp [AuthCall.StoresNothing]))
  apply Reaches.next (gate_act (i := 0) (c := .randomUUID) (r := "j") rfl (.inl ⟨by decide, by decide, rfl⟩)
    (by simp [AuthCall.StoresNothing]))
  apply Reaches.next (gate_act (i := 0) (c := .now) (r := (100 : Nat)) rfl (.inl ⟨rfl, rfl⟩)
    (by simp [AuthCall.StoresNothing]))
  refine .here ⟨0, ⟨"u", "j", 604900⟩, "u", 604900, .ok (), ⟨⟨_, _⟩, _⟩,
    .act (I := authInterface) rfl ⟨.inl (.inr ⟨"r", by decide, by decide, ⟨linked, by decide, rfl⟩,
      rfl, rfl⟩), rfl⟩, ?_, ?_⟩
  · exact ⟨linked, by decide, rfl, .inl ⟨rfl, by decide⟩⟩
  · intro h
    obtain ⟨task, ht, h⟩ := h
    cases ht
    rcases h with ⟨_, _, _, _, h, -⟩ | ⟨_, h, -⟩
    · cases h
    · cases h

private theorem careful_begin {x y : GateStage} {q : AuthRequest × RequestInfo} :
    Careful .sample x (.begin q) y := by
  constructor
  · intro _ _ _ _ _ _ _ h
    cases h
  · intro h
    cases h

private theorem careful_act (ht : tasks[i]? = some ⟨q, log, .call c k⟩)
    (he : mayServe c x.store r s') (hc : c.StoresNothing)
    (hq : ∀ profile, q.1 ≠ .google profile) :
    CarefulStep .sample ⟨x, tasks⟩ (.act i c r)
      ⟨⟨s', x.verified⟩, tasks.set i ⟨q, log ++ [⟨c, r⟩], k r⟩⟩ := by
  refine ⟨gate_act ht he hc, ?_, ?_⟩
  · intro j task profile email user hj hgoogle hl
    simp only [StageLabel.act.injEq] at hl
    obtain ⟨rfl, -⟩ := hl
    rw [ht] at hj
    cases hj
    exact (hq profile hgoogle).elim
  · intro h
    cases h

private theorem verify_run : Reaches (CarefulStep .sample) sampleStart fun x => ∃ y,
    (gateServer .sample).Step x
      (.act 1 (AuthCall.createRefreshToken ⟨"u", "j", 604900⟩ "u" 604900) (.ok ())) y ∧
    GatedIn .sample x.state.store "u" := by
  apply Reaches.next ⟨.begin (.login ⟨"a@b.c", "pw", false, none⟩, client), careful_begin⟩
  apply Reaches.next (careful_act (i := 0) (c := .redisConnect) (r := .ok ()) rfl
    (.inl ⟨rfl, rfl⟩) (by simp [AuthCall.StoresNothing]) (by simp))
  apply Reaches.next (careful_act (i := 0) (c := .redisTtl (.lock "a@b.c")) (r := .ok (-2)) rfl
    (.inl ⟨⟨-2, rfl, by decide⟩, rfl⟩) (by simp [AuthCall.StoresNothing]) (by simp))
  apply Reaches.next (careful_act (i := 0) (c := .findUserByEmail "a@b.c") (r := .ok (some enrolled)) rfl
    (.inl ⟨rfl, rfl⟩) (by simp [AuthCall.StoresNothing]) (by simp))
  apply Reaches.next (careful_act (i := 0) (c := .redisConnect) (r := .ok ()) rfl
    (.inl ⟨rfl, rfl⟩) (by simp [AuthCall.StoresNothing]) (by simp))
  apply Reaches.next (careful_act (i := 0) (c := .redisDel [.fail "a@b.c", .lock "a@b.c"]) (r := .ok ()) rfl
    (.inl ⟨rfl, rfl⟩) (by simp [AuthCall.StoresNothing]) (by simp))
  apply Reaches.next (careful_act (i := 0) (c := .syncUserProjection enrolled) (r := .ok ()) rfl
    (.inl rfl) (by simp [AuthCall.StoresNothing]) (by simp))
  apply Reaches.next (careful_act (i := 0) (c := .redisConnect) (r := .ok ()) rfl
    (.inl ⟨rfl, rfl⟩) (by simp [AuthCall.StoresNothing]) (by simp))
  apply Reaches.next (careful_act (i := 0) (c := .redisGet (.loginContext "u")) (r := .ok none) rfl
    (.inl ⟨rfl, .inl rfl⟩) (by simp [AuthCall.StoresNothing]) (by simp))
  apply Reaches.next (careful_act (i := 0) (c := .redisConnect) (r := .ok ()) rfl
    (.inl ⟨rfl, rfl⟩) (by simp [AuthCall.StoresNothing]) (by simp))
  apply Reaches.next (careful_act (i := 0) (c := .randomUUID) (r := "c") rfl
    (.inl ⟨by decide, by decide, rfl⟩) (by simp [AuthCall.StoresNothing]) (by simp))
  apply Reaches.next (careful_act (i := 0) (c := .redisSet (.mfaChallenge "c") (.challenge challenge) 300) (r := .ok ()) rfl
    (.inl ⟨rfl, rfl⟩) (by simp [AuthCall.StoresNothing]) (by simp))
  apply Reaches.next ⟨.begin (.verifyAdminMfa "c" "287082", client), careful_begin⟩
  apply Reaches.next (careful_act (i := 1) (c := .redisConnect) (r := .ok ()) rfl
    (.inl ⟨rfl, rfl⟩) (by simp [AuthCall.StoresNothing]) (by simp))
  apply Reaches.next (careful_act (i := 1) (c := .redisGet (.mfaChallenge "c")) (r := .ok (some (.challenge challenge))) rfl
    (.inl ⟨rfl, .inl rfl⟩) (by simp [AuthCall.StoresNothing]) (by simp))
  apply Reaches.next (careful_act (i := 1) (c := .findUserById "u") (r := .ok (some enrolled)) rfl
    (.inl ⟨rfl, rfl⟩) (by simp [AuthCall.StoresNothing]) (by simp))
  apply Reaches.next (careful_act (i := 1) (c := .now) (r := (100 : Nat)) rfl
    (.inl ⟨rfl, rfl⟩) (by simp [AuthCall.StoresNothing]) (by simp))
  apply Reaches.next (careful_act (i := 1) (c := .redisDel [.mfaChallenge "c", .mfaAttempts "c"]) (r := .ok ()) rfl
    (.inl ⟨rfl, rfl⟩) (by simp [AuthCall.StoresNothing]) (by simp))
  apply Reaches.next (careful_act (i := 1) (c := .randomUUID) (r := "j") rfl
    (.inl ⟨by decide, by decide, rfl⟩) (by simp [AuthCall.StoresNothing]) (by simp))
  apply Reaches.next (careful_act (i := 1) (c := .now) (r := (100 : Nat)) rfl
    (.inl ⟨rfl, rfl⟩) (by simp [AuthCall.StoresNothing]) (by simp))
  refine .here ⟨⟨⟨_, _⟩, _⟩, .act (I := authInterface) rfl ⟨.inl (.inr ⟨"r", by decide, by decide,
    ⟨enrolled, by decide, rfl⟩, rfl, rfl⟩), rfl⟩, ?_⟩
  exact ⟨enrolled, by decide, rfl, .inl ⟨rfl, by decide⟩⟩

/-- After login and the right TOTP code the session that is opened is trusted. -/
theorem no_session_without_second_factor_totp : ∃ trace x,
    Run (CarefulStep .sample) sampleStart trace x ∧ GatedIn .sample x.state.store "u" ∧
    TrustedAt .sample x 1 "u" := by
  obtain ⟨trace, x, hrun, y, hstep, hgated⟩ := verify_run
  exact ⟨trace, x, hrun, hgated, no_session_without_second_factor hrun hstep hgated⟩

end Sample

end SecondFactor

end CloudVM
