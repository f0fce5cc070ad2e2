import CloudVM.Auth.Server

/-!
# What a deactivated account can still get

`login`, `findOrCreateGoogleUser`, `verifyAdminMfa` and `generateWsTicket` look at `isActive` in
the row they read; `refreshTokens` does not. An account that is inactive gets nothing as long as
no refresh finds a token of it, and if whoever was past the check at the moment of the
deactivation is not counted on.
-/

namespace CloudVM

open AuthStore Process AuthService

/-- A request for a session, or for a ticket. -/
inductive TokenRequest where
  | auth (q : AuthRequest)
  | wsTicket (userId : String)
deriving DecidableEq, Repr

inductive TokenReply where
  | auth (r : AuthReply)
  | ticket (t : WsTicket)
deriving DecidableEq, Repr

def TokenRequest.handle (env : AuthEnv) (q : TokenRequest × RequestInfo) : AuthProcess TokenReply :=
  match q.1 with
  | .auth a => do
    let r ← AuthRequest.handle env (a, q.2)
    pure (.auth r)
  | .wsTicket userId => do
    let t ← generateWsTicket userId q.2
    pure (.ticket t)

def AuthReply.grantee : AuthReply → Option String
  | .tokens pair _ => some pair.accessToken.sub
  | _ => none

def TokenReply.grantee : TokenReply → Option String
  | .auth r => r.grantee
  | .ticket t => some t.sub

def tokenServer (env : AuthEnv) :
    Server authInterface Failure TokenReply (TokenRequest × RequestInfo) AuthStore where
  handler := TokenRequest.handle env
  effect := fun _ _ c s r s' => mayServe c s r s'
  change := AuthStore.Passes

abbrev TokenTask := Task authInterface Failure TokenReply (TokenRequest × RequestInfo)

abbrev TokenStage := Stage authInterface Failure TokenReply (TokenRequest × RequestInfo) AuthStore

abbrev TokenLabel := StageLabel authInterface (TokenRequest × RequestInfo)

namespace Deactivated

section Definitions

variable (v : String)

def Inactive (s : AuthStore) : Prop := ∃ u ∈ s.users.rows, u.id = v ∧ u.isActive = false

/-- A step stores a refresh token of the account, or ends a request with tokens or a ticket
for it. -/
def Issues (x : TokenStage) (l : TokenLabel) (y : TokenStage) : Prop :=
  (∃ i t e, l = .act i (.createRefreshToken t v e) (.ok ())) ∨
  ∃ (i : Nat) (task : TokenTask) (reply : TokenReply), y.tasks[i]? = some task ∧
    task.rest = .ret reply ∧ reply.grantee = some v ∧
    ∀ old : TokenTask, x.tasks[i]? = some old → old.rest ≠ .ret reply

/-- How an inactive account is seen: its row says so, no new account has its id, and no refresh
finds a token of it. -/
def Seen : (c : AuthCall) → c.Answer → Prop
  | .findUserByEmail _, r => ∀ u, r = .ok (some u) → u.id = v → u.isActive = false
  | .findUserById userId, r => ∀ u, r = .ok (some u) → u.id = userId ∧ (u.id = v → u.isActive = false)
  | .createUser _, r => ∀ u, r = .ok u → u.id ≠ v
  | .setGoogleId userId _, r => ∀ u, r = .ok u → u.id = userId
  | .findRefreshToken _, r => ∀ row u, r = .ok (some (row, u)) → u.id ≠ v
  | _, _ => True

def NotFor (c : AuthCall) : Prop := ∀ t u e, c = .createRefreshToken t u e → u ≠ v

/-- As long as the account is seen as inactive, the process stores no token for it and every
result is in `Q`. -/
abbrev Spares {α : Type} (p : AuthProcess α) (Q : α → Prop) : Prop := p.Within (NotFor v) (Seen v) Q

/-- The rest of a request that issues nothing to an account it sees inactive. -/
def Clean (p : AuthProcess TokenReply) : Prop := Spares v p fun reply => reply.grantee ≠ some v

end Definitions

section Rules

variable {v : String} {α β : Type}

theorem notFor_of_storesNothing {c : AuthCall} (h : c.StoresNothing) : NotFor v c :=
  fun t u e hc => (h t u e hc).elim

theorem spares_then {p : AuthProcess α} {f : α → AuthProcess β} {R : β → Prop} (hp : IsNeutral p)
    (hf : ∀ a, Spares v (f a) R) : Spares v (p >>= f) R :=
  within_bind (hp.within fun _ hc => notFor_of_storesNothing hc.storesNothing) fun a _ => hf a

theorem spares_call {c : AuthCall} {g : c.Answer → AuthProcess α} {f : α → AuthProcess β}
    {R : β → Prop} (hc : c.StoresNothing) (h : ∀ r, Seen v c r → Spares v (g r >>= f) R) :
    Spares v ((.call c g : AuthProcess α) >>= f) R :=
  within_call (notFor_of_storesNothing hc) h

end Rules

section Handlers

variable {v : String} (env : AuthEnv) {req : RequestInfo}

private theorem spares_generateTokens {user : AuthUser} (h : user.id ≠ v) :
    Spares v (generateTokens env user req) fun pair => pair.accessToken.sub ≠ v := by
  apply spares_then apart_randomUUID.neutral
  intro jti
  apply spares_then apart_now.neutral
  intro t
  refine ⟨?_, fun r _ => ?_⟩
  · intro t' u e hc
    cases hc
    exact h
  · cases r with
    | error e => trivial
    | ok _ => exact h

private theorem spares_openSession {user : AuthUser} (rememberMe : Option Bool) (h : user.id ≠ v) :
    Spares v (openSession env user req rememberMe) fun reply => reply.grantee ≠ some v := by
  apply within_bind (spares_generateTokens env h)
  intro pair hpair
  apply spares_then (apart_storeLoginContext env _ _).neutral
  intro _ heq
  exact hpair (Option.some.inj heq)

theorem spares_register (dto : RegisterDto) :
    Spares v (register env dto req) fun reply => reply.grantee ≠ some v := by
  apply spares_then (apart_findUserByEmail _).neutral
  intro found
  cases found with
  | some user => trivial
  | none =>
    apply spares_then (apart_bcryptHash _).neutral
    intro hashedPassword
    apply spares_call (c := .createUser _) (by simp [AuthCall.StoresNothing])
    intro r hseen
    cases r with
    | error e => trivial
    | ok user =>
      apply spares_then (neutral_syncUserProjection user)
      intro _
      exact spares_openSession env none (hseen user rfl)

private theorem spares_refuseLogin (email message : String) {Q : AuthUser → Prop} :
    Spares v (refuseLogin env email message) Q := by
  apply spares_then (apart_registerFailedLogin env email).neutral
  intro _
  trivial

private theorem spares_afterPassword {email : String} {user : AuthUser} (h : user.id ≠ v) :
    Spares v (afterPassword env email user req) fun u => u.id ≠ v := by
  apply spares_then (apart_clearFailedLogins env email).neutral
  intro _
  apply spares_then (neutral_syncUserProjection user)
  intro _
  apply spares_then (apart_evaluateLoginAnomaly env user.id req).neutral
  intro detected
  split
  · trivial
  · exact h

private theorem spares_authenticate (dto : LoginDto) :
    Spares v (authenticate env dto req) fun u => u.id ≠ v := by
  apply spares_then (apart_assertNotLocked env _).neutral
  intro _
  apply spares_then (apart_assertCaptchaIfNeeded env _ _).neutral
  intro _
  apply spares_call (c := .findUserByEmail _)
    (by simp [AuthCall.StoresNothing])
  intro r hseen
  cases r with
  | error e => trivial
  | ok found =>
    cases found with
    | none => exact spares_refuseLogin env _ _
    | some user =>
      simp only [Process.ofExcept_ok, Process.ret_bind]
      split
      · exact spares_refuseLogin env _ _
      · split
        · exact spares_refuseLogin env _ _
        · rename_i hactive
          apply spares_afterPassword
          intro hid
          simp [hseen user rfl hid] at hactive

theorem spares_login (dto : LoginDto) :
    Spares v (login env dto req) fun reply => reply.grantee ≠ some v := by
  apply within_bind (spares_authenticate env dto)
  intro user huser
  split
  · apply spares_then (apart_storeChallenge env _).neutral
    intro challengeId
    simp [Within, AuthReply.grantee]
  · split
    · split
      · simp [Within, AuthReply.grantee]
      · apply spares_then apart_generateMfaCode.neutral
        intro code
        apply spares_then (apart_storeChallenge env _).neutral
        intro challengeId
        simp [Within, AuthReply.grantee]
    · exact spares_openSession env none huser

private theorem spares_googleSession {user : AuthUser} (profile : GoogleProfile)
    (h : user.id = v → user.isActive = false) :
    Spares v (googleSession env user profile req) fun reply => reply.grantee ≠ some v := by
  have hopen : ∀ u : AuthUser, u.id ≠ v → Spares v (do
      syncUserProjection u
      openSession env u req none) fun reply => reply.grantee ≠ some v := by
    intro u hu
    apply spares_then (neutral_syncUserProjection u)
    intro _
    exact spares_openSession env none hu
  unfold googleSession
  split
  · simp [Within, AuthReply.grantee]
  · rename_i hactive
    have hne : user.id ≠ v := by
      intro hid
      simp [h hid] at hactive
    split
    · exact hopen user hne
    · apply spares_call (c := .setGoogleId user.id profile.id)
        (by simp [AuthCall.StoresNothing])
      intro r hseen
      cases r with
      | error e => trivial
      | ok u =>
        apply hopen u
        rw [hseen u rfl]
        exact hne

theorem spares_google (profile : GoogleProfile) :
    Spares v (findOrCreateGoogleUser env profile req) fun reply => reply.grantee ≠ some v := by
  unfold findOrCreateGoogleUser
  split
  · simp [Within, AuthReply.grantee]
  · apply spares_call (c := .findUserByEmail _)
      (by simp [AuthCall.StoresNothing])
    intro r hseen
    cases r with
    | error e => trivial
    | ok found =>
      cases found with
      | some user => exact spares_googleSession env profile (hseen user rfl)
      | none =>
        simp only [Process.ofExcept_ok, Process.ret_bind]
        split
        · simp [Within, AuthReply.grantee]
        · apply spares_then apart_randomUUID.neutral
          intro randomPassword
          apply spares_then (apart_bcryptHash _).neutral
          intro hashedPassword
          apply spares_call (c := .createUser _)
            (by simp [AuthCall.StoresNothing])
          intro r hnew
          cases r with
          | error e => trivial
          | ok user =>
            apply spares_googleSession env profile
            intro hid
            exact absurd hid (hnew user rfl)

private theorem spares_rejectCode (challengeId : String) {Q : AuthReply → Prop} :
    Spares v (rejectCode env challengeId) Q := by
  apply spares_then (apart_redisIncr (by simp)).neutral
  intro attempts
  apply spares_then (apart_expireFirst _ _ _).neutral
  intro _
  split
  · apply spares_then (apart_redisDel _).neutral
    intro _
    trivial
  · trivial

theorem spares_verifyAdminMfa (challengeId code : String) :
    Spares v (verifyAdminMfa env challengeId code req) fun reply => reply.grantee ≠ some v := by
  apply spares_then apart_ensureRedisConnected.neutral
  intro _
  apply spares_then (apart_redisGet _).neutral
  intro raw
  split
  · split
    · apply spares_then (apart_redisDel _).neutral
      intro _
      trivial
    · apply spares_call (c := .findUserById _)
        (by simp [AuthCall.StoresNothing])
      intro r hseen
      cases r with
      | error e => trivial
      | ok found =>
        cases found with
        | none => trivial
        | some user =>
          simp only [Process.ofExcept_ok, Process.ret_bind]
          split
          · trivial
          · rename_i hactive
            apply spares_then (apart_checkCode env _ user code).neutral
            intro isValidCode
            cases isValidCode with
            | false => exact spares_rejectCode env challengeId
            | true =>
              apply spares_then (apart_redisDel _).neutral
              intro _
              apply spares_openSession
              intro hid
              simp [(hseen user rfl).2 hid] at hactive
  · trivial

/-- A refresh that finds no token of the account issues none for it. -/
theorem spares_refresh (token : Bearer) :
    Spares v (refreshTokens env token req) fun reply => reply.grantee ≠ some v := by
  have hreuse : ∀ sub : String,
      Spares v (reuseDetected sub) fun reply => reply.grantee ≠ some v := by
    intro sub
    apply spares_call (c := .deleteTokensOf sub)
      (by simp [AuthCall.StoresNothing])
    intro r _
    cases r <;> trivial
  apply spares_then apart_now.neutral
  intro t
  cases verify token t with
  | none => trivial
  | some decoded =>
    apply spares_then apart_ensureRedisConnected.neutral
    intro _
    apply spares_then (apart_redisGet _).neutral
    intro wasUsed
    split
    · exact hreuse _
    · apply spares_call (c := .findRefreshToken token)
        (by simp [AuthCall.StoresNothing])
      intro r hseen
      cases r with
      | error e => trivial
      | ok stored =>
        cases stored with
        | none => exact hreuse _
        | some found =>
          obtain ⟨row, user⟩ := found
          have hne : user.id ≠ v := hseen row user rfl
          apply spares_then apart_now.neutral
          intro t'
          split
          · apply spares_call (c := .deleteTokenRow row.id)
              (by simp [AuthCall.StoresNothing])
            intro r _
            cases r <;> trivial
          · apply spares_call (c := .deleteTokenRow row.id)
              (by simp [AuthCall.StoresNothing])
            intro r _
            cases r with
            | error e => trivial
            | ok _ =>
              apply spares_then apart_now.neutral
              intro t''
              apply spares_call (c := .redisSet _ _ _)
                (by simp [AuthCall.StoresNothing])
              intro r _
              cases r with
              | error e => trivial
              | ok _ =>
                apply within_bind (spares_generateTokens env hne)
                intro pair hpair heq
                exact hpair (Option.some.inj heq)

private theorem spares_logout (token : Bearer) :
    Spares v (logout token) fun reply => reply.grantee ≠ some v := by
  unfold logout
  split
  · simp [Within, AuthReply.grantee]
  · apply within_bind (Q := fun _ => True)
    · apply within_tryCatch
      · refine ⟨notFor_of_storesNothing (by simp [AuthCall.StoresNothing]), fun r _ => ?_⟩
        cases r <;> trivial
      · intro e
        trivial
    · intro _ _
      simp [Within, AuthReply.grantee]

theorem clean_handle (q : TokenRequest × RequestInfo) : Clean v (TokenRequest.handle env q) := by
  obtain ⟨q, req⟩ := q
  cases q with
  | wsTicket userId =>
    apply within_bind (Q := fun t => t.sub ≠ v)
    · apply spares_call (c := .findUserById userId)
        (by simp [AuthCall.StoresNothing])
      intro r hseen
      cases r with
      | error e => trivial
      | ok found =>
        cases found with
        | none => trivial
        | some user =>
          obtain ⟨hid, hinactive⟩ := hseen user rfl
          simp only [Process.ofExcept_ok, Process.ret_bind]
          split
          · trivial
          · rename_i hactive
            intro huser
            simp [hinactive (hid.trans huser)] at hactive
    · intro t ht heq
      exact ht (Option.some.inj heq)
  | auth a =>
    apply within_bind (Q := fun reply => reply.grantee ≠ some v)
    · cases a with
      | register dto => exact spares_register env dto
      | login dto => exact spares_login env dto
      | google profile => exact spares_google env profile
      | verifyAdminMfa challengeId code => exact spares_verifyAdminMfa env challengeId code
      | refresh token => exact spares_refresh env token
      | logout token => exact spares_logout token
      | logoutAll userId =>
        apply spares_call (c := .deleteTokensOf userId)
          (by simp [AuthCall.StoresNothing])
        intro r _
        cases r with
        | error e => trivial
        | ok _ => simp [Within, AuthReply.grantee]
    · intro reply hreply
      exact hreply

end Handlers

section Runs

/-- What a run has to keep to: the owner of a token that a refresh finds is active, and whoever
is under way when an account is deactivated issues nothing to it without reading it again. -/
structure Guarded (x : TokenStage) (l : TokenLabel) (y : TokenStage) : Prop where
  lookup : ∀ i token row user,
    l = .act i (.findRefreshToken token) (.ok (some (row, user))) → user.isActive = true
  deactivation : ∀ v, Inactive v y.state → ¬ Inactive v x.state →
    ∀ task ∈ x.tasks, Clean v task.rest

def GuardedStep (env : AuthEnv) (x : TokenStage) (l : TokenLabel) (y : TokenStage) : Prop :=
  (tokenServer env).Step x l y ∧ Guarded x l y

/-- Every request under way spares every inactive account. -/
def AllClean (x : TokenStage) : Prop :=
  ∀ v, Inactive v x.state → ∀ task ∈ x.tasks, Clean v task.rest

variable {env : AuthEnv} {v : String} {s s' : AuthStore}

private theorem row_inactive (h : Inactive v s) {u : AuthUser} (hu : u ∈ s.users.rows)
    (hid : u.id = v) : u.isActive = false := by
  obtain ⟨u', hu', hid', hinactive⟩ := h
  rw [s.users.eq_of_key_eq hu hu' (hid.trans hid'.symm)]
  exact hinactive

private theorem seen_of_mayServe {c : AuthCall} {r : c.Answer} (h : mayServe c s r s')
    (hv : Inactive v s)
    (hlookup : ∀ token row user, (⟨c, r⟩ : Event authInterface) =
      ⟨AuthCall.findRefreshToken token, .ok (some (row, user))⟩ → user.isActive = true) :
    Seen v c r := by
  cases c
  case findUserByEmail email =>
    intro u hu hid
    subst hu
    exact row_inactive hv (user_of_mayServe h).2 hid
  case findUserById userId =>
    intro u hu
    subst hu
    obtain ⟨-, hrow, hid⟩ := userById_of_mayServe h
    exact ⟨hid, row_inactive hv hrow⟩
  case createUser d =>
    intro u hu hid
    subst hu
    obtain ⟨u', hu', hid', -⟩ := hv
    exact freshId_of_mayServe h (List.mem_map.mpr ⟨u', hu', hid'.trans hid.symm⟩)
  case setGoogleId userId googleId =>
    intro u hu
    subst hu
    obtain ⟨u', -, hid, rfl⟩ := googleId_of_mayServe h
    exact hid
  case findRefreshToken token =>
    intro row u hu hid
    subst hu
    have hactive := hlookup token row u rfl
    cases token with
    | other text =>
      rcases h with ⟨hfind, -⟩ | ⟨⟨e, hfail⟩, -⟩
      · cases hfind
      · cases hfail
    | signed t =>
      obtain ⟨-, -, -, hfind⟩ := lookup_of_mayServe h
      have hinactive := row_inactive hv ((Table.find?_eq_some _).mp hfind).1 hid
      rw [hactive] at hinactive
      cases hinactive
  all_goals exact trivial

private theorem inactive_of_mayServe {c : AuthCall} {r : c.Answer} (h : mayServe c s r s')
    (hv : Inactive v s') : Inactive v s := by
  obtain ⟨u, hu, hid, hinactive⟩ := hv
  rcases users_of_mayServe h hu with ⟨u₀, hu₀, hid₀, -, hactive⟩ | ⟨d, id, -, rfl, -⟩
  · exact ⟨u₀, hu₀, hid₀.trans hid, hactive.trans hinactive⟩
  · cases hinactive

private theorem clean_next {c : AuthCall} {k : c.Answer → AuthProcess TokenReply} {r : c.Answer}
    (h : Clean v (.call c k)) (hseen : Seen v c r) : Clean v (k r) := h.2 r hseen

private theorem Clean.of_ret {p : AuthProcess TokenReply} {reply : TokenReply} (h : Clean v p)
    (hp : p = .ret reply) : reply.grantee ≠ some v := by
  subst hp
  exact h

private theorem Guarded.lookup_at {x y : TokenStage} {i : Nat} {c : AuthCall} {r : c.Answer}
    (h : Guarded x (.act i c r) y) :
    ∀ token row user, (⟨c, r⟩ : Event authInterface) =
      ⟨AuthCall.findRefreshToken token, .ok (some (row, user))⟩ → user.isActive = true := by
  intro token row user heq
  cases heq
  exact h.lookup i token row user rfl

private theorem allClean_step {x y : TokenStage} {l : TokenLabel} (hx : AllClean x)
    (h : GuardedStep env x l y) : AllClean y := by
  obtain ⟨hs, hg⟩ := h
  intro v hv
  have hold : Inactive v x.state → ∀ task ∈ x.tasks, Clean v task.rest := hx v
  have hall : ∀ task ∈ x.tasks, Clean v task.rest := by
    by_cases hv' : Inactive v x.state
    · exact hold hv'
    · exact hg.deactivation v hv hv'
  cases hs with
  | begin q =>
    intro task hm
    rcases List.mem_append.mp hm with hm | hm
    · exact hall task hm
    · obtain rfl := List.mem_singleton.mp hm
      exact clean_handle env q
  | act ht he =>
    intro task hm
    rcases mem_set_cases hm with rfl | ⟨j, -, hj⟩
    · have hseen := seen_of_mayServe he (inactive_of_mayServe he hv) hg.lookup_at
      exact clean_next (hall _ (List.mem_of_getElem? ht)) hseen
    · exact hall task (List.mem_of_getElem? hj)
  | crash e ht hl =>
    intro task hm
    rcases mem_set_cases hm with rfl | ⟨j, -, hj⟩
    · exact trivial
    · exact hall task (List.mem_of_getElem? hj)
  | change hc => exact hall

private theorem issues_nothing {x y : TokenStage} {l : TokenLabel} (hx : AllClean x)
    (h : GuardedStep env x l y) (hv : Inactive v x.state) : ¬ Issues v x l y := by
  obtain ⟨hs, hg⟩ := h
  have hall := hx v hv
  rintro (⟨i, t, e, rfl⟩ | ⟨j, task, reply, hj, hrest, hgrant, hnew⟩)
  · obtain ⟨q, log, k, ht⟩ := hs.act_inv
    exact (hall _ (List.mem_of_getElem? ht)).1 t v e rfl rfl
  · cases hs with
    | begin q =>
      rcases getElem?_append_cases hj with ⟨-, rfl⟩ | hj
      · have hclean : Clean v (TokenRequest.handle env q) := clean_handle env q
        exact hclean.of_ret hrest hgrant
      · exact hnew task hj hrest
    | act ht he =>
      rcases getElem?_set_cases hj with ⟨-, rfl⟩ | ⟨-, hj⟩
      · have hseen := seen_of_mayServe he hv hg.lookup_at
        have hclean := clean_next (hall _ (List.mem_of_getElem? ht)) hseen
        exact hclean.of_ret hrest hgrant
      · exact hnew task hj hrest
    | crash e ht hl =>
      rcases getElem?_set_cases hj with ⟨-, rfl⟩ | ⟨-, hj⟩
      · cases hrest
      · exact hnew task hj hrest
    | change hc => exact hnew task hj hrest

/-- In every run that keeps to the guards, no step issues anything to an account that is
inactive. -/
theorem inactive_gets_nothing (env : AuthEnv) (s : AuthStore)
    {trace : List (TokenLabel × TokenStage)} {x y : TokenStage} {l : TokenLabel}
    (h : Run (GuardedStep env) ⟨s, []⟩ trace x) (hs : GuardedStep env x l y) (v : String)
    (hv : Inactive v x.state) : ¬ Issues v x l y := by
  have hinit : AllClean ⟨s, []⟩ := by simp [AllClean]
  have hclean := h.invariant hinit fun _ _ _ hx h => allClean_step hx h
  exact issues_nothing hclean hs hv

end Runs

section Sample

private def formerUser (isActive : Bool) : AuthUser :=
  { id := "u", email := "a@b.c", password := "hash of pw", firstName := "A", lastName := "B", isActive }

private def formerToken : RefreshPayload := ⟨"u", "j", 604900⟩

private def formerRow : RefreshRow := ⟨"r", formerToken, "u", 604900⟩

private def formerStore (isActive : Bool) : AuthStore where
  users := ⟨[formerUser isActive], by simp⟩
  valid := by simp [formerUser, AuthUser.Valid]
  tokens := ⟨[formerRow], by decide⟩
  unique := by decide
  owner := by simp [formerRow, formerUser]
  redis := fun _ => none
  clock := 100
  drawn := ["j"]

private def formerInfo : RequestInfo := ⟨"f", "1.2.3.4", "agent", none⟩

private def refreshAgain : TokenRequest × RequestInfo :=
  (.auth (.refresh (.signed formerToken)), formerInfo)

private theorem inactive_former : Inactive "u" (formerStore false) :=
  ⟨formerUser false, List.mem_singleton_self _, rfl, rfl⟩

private theorem former_act (i : Nat) (c : AuthCall) (r : c.Answer) {s s' : AuthStore}
    {tasks : List TokenTask} {q : TokenRequest × RequestInfo} {log : AuthLog}
    {k : c.Answer → AuthProcess TokenReply} (ht : tasks[i]? = some ⟨q, log, .call c k⟩)
    (he : AuthStore.serve c s r s') :
    (tokenServer .sample).Step ⟨s, tasks⟩ (.act i c r)
      ⟨s', tasks.set i ⟨q, log ++ [⟨c, r⟩], k r⟩⟩ := .act ht (.inl he)

private theorem former_passes : (formerStore true).Passes (formerStore false) where
  tokens := rfl
  drawn := rfl
  clock := le_rfl
  redis := by simp [formerStore]

private theorem refreshed_run : Reaches (tokenServer .sample).Step ⟨formerStore true, []⟩ fun x =>
    Inactive "u" x.state ∧ ∃ l y, (tokenServer .sample).Step x l y ∧ Issues "u" x l y := by
  apply Reaches.next (.change former_passes)
  apply Reaches.next (.begin refreshAgain)
  apply Reaches.next (former_act 0 .now (100 : Nat) rfl ⟨rfl, rfl⟩)
  apply Reaches.next (former_act 0 .redisConnect (.ok ()) rfl ⟨rfl, rfl⟩)
  apply Reaches.next (former_act 0 (.redisGet (.refreshUsed "j")) (.ok none) rfl ⟨rfl, .inl rfl⟩)
  apply Reaches.next (former_act 0 (.findRefreshToken (.signed formerToken))
    (.ok (some (formerRow, formerUser false))) rfl ⟨rfl, rfl⟩)
  apply Reaches.next (former_act 0 .now (100 : Nat) rfl ⟨rfl, rfl⟩)
  apply Reaches.next (former_act 0 (.deleteTokenRow "r") (.ok ()) rfl ⟨rfl, rfl⟩)
  apply Reaches.next (former_act 0 .now (100 : Nat) rfl ⟨rfl, rfl⟩)
  apply Reaches.next (former_act 0 (.redisSet (.refreshUsed "j") .one 604800) (.ok ()) rfl ⟨rfl, rfl⟩)
  apply Reaches.next (former_act 0 .randomUUID "j1" rfl ⟨by decide, by decide, rfl⟩)
  apply Reaches.next (former_act 0 .now (100 : Nat) rfl ⟨rfl, rfl⟩)
  apply Reaches.here
  refine ⟨inactive_former, _, _, former_act 0
    (.createRefreshToken ⟨"u", "j1", 604900⟩ "u" 604900) (.ok ()) rfl
    (.inr ⟨"r1", by decide, by decide, ⟨formerUser false, List.mem_singleton_self _, rfl⟩, rfl, rfl⟩), ?_⟩
  exact .inl ⟨0, _, _, rfl⟩

/-- A refresh keeps the session of a deactivated account alive. -/
theorem inactive_session_refreshed :
    ¬ ∀ (env : AuthEnv) (s : AuthStore) (trace : List (TokenLabel × TokenStage)) (x y : TokenStage)
        (l : TokenLabel), Run (tokenServer env).Step ⟨s, []⟩ trace x → (tokenServer env).Step x l y →
        ∀ v, Inactive v x.state → ¬ Issues v x l y := by
  intro h
  obtain ⟨trace, x, hrun, hinactive, l, y, hstep, hissues⟩ := refreshed_run
  exact h .sample (formerStore true) trace x y l hrun hstep "u" hinactive hissues

private def ticketAgain : TokenRequest × RequestInfo := (.wsTicket "u", formerInfo)

private theorem guarded_begin {s : AuthStore} {tasks : List TokenTask}
    (q : TokenRequest × RequestInfo) :
    GuardedStep .sample ⟨s, tasks⟩ (.begin q)
      ⟨s, tasks ++ [⟨q, [], TokenRequest.handle .sample q⟩]⟩ :=
  ⟨.begin q, by simp, fun _ hv hv' => absurd hv hv'⟩

/-- An inactive account asks for a ticket: the row is read and nothing is issued. -/
theorem inactive_gets_nothing_ticket :
    ∃ (x y : TokenStage) (l : TokenLabel), GuardedStep .sample x l y ∧ Inactive "u" x.state ∧
      l = .act 0 (.findUserById "u") (.ok (some (formerUser false))) ∧ ¬ Issues "u" x l y := by
  have hstep : GuardedStep .sample
      ⟨formerStore false, [⟨ticketAgain, [], TokenRequest.handle .sample ticketAgain⟩]⟩
      (.act 0 (.findUserById "u") (.ok (some (formerUser false)))) _ :=
    ⟨former_act 0 _ _ rfl ⟨rfl, rfl⟩, by simp, fun _ hv hv' => absurd hv hv'⟩
  refine ⟨_, _, _, hstep, inactive_former, rfl, ?_⟩
  exact inactive_gets_nothing .sample (formerStore false) (.single (guarded_begin ticketAgain))
    hstep "u" inactive_former

end Sample

end Deactivated

end CloudVM
