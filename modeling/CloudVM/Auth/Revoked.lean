import CloudVM.Auth.Rotation
import CloudVM.Framework.Records

/-!
# Revoked sessions

A refresh token lives as long as its row. Each token has a `jti` that one request has drawn, and no
request stores a second one, so a row that is gone, for whatever reason, never comes back: in every
interleaving of requests its token is refused wherever it is looked up from then on.
-/

namespace CloudVM.Revoked

open AuthStore Process AuthService Rotation

section Contract

def Drew (log : AuthLog) (jti : String) : Prop := (⟨AuthCall.randomUUID, jti⟩ : Event authInterface) ∈ log

def Stored (log : AuthLog) : Prop :=
  ∃ t userId expiresAt r,
    (⟨AuthCall.createRefreshToken t userId expiresAt, r⟩ : Event authInterface) ∈ log

/-- A token is stored once, under a value that was drawn for it. -/
def Permitted (log : AuthLog) (c : AuthCall) : Prop :=
  ∀ t userId expiresAt, c = .createRefreshToken t userId expiresAt → Drew log t.jti ∧ ¬ Stored log

abbrev Mints {α : Type} (p : AuthProcess α) : Prop :=
  ∀ log, ¬ Stored log → p.Wp Permitted (logged fun _ _ => True) (fun _ _ => True) log

variable {α β : Type}

theorem not_stored_append {log : AuthLog} {c : AuthCall} {r : c.Answer} (h : ¬ Stored log)
    (hc : c.StoresNothing) : ¬ Stored (log ++ [⟨c, r⟩]) := by
  rintro ⟨t, userId, expiresAt, r', hm⟩
  rcases List.mem_append.mp hm with hm | hm
  · exact h ⟨t, userId, expiresAt, r', hm⟩
  · exact hc t userId expiresAt (Sigma.mk.inj (List.mem_singleton.mp hm)).1.symm

theorem permitted_of_storesNothing {log : AuthLog} {c : AuthCall} (hc : c.StoresNothing) :
    Permitted log c := fun t userId expiresAt h => (hc t userId expiresAt h).elim

theorem quiet_wp {p : AuthProcess α} (h : p.Only AuthCall.StoresNothing) :
    p.Keeps Permitted (logged fun _ _ => True) fun log => ¬ Stored log := by
  apply h.keeps
  · exact fun log c hc => permitted_of_storesNothing hc
  · rintro c log r log' hc hlog ⟨-, rfl⟩
    exact not_stored_append hlog hc

theorem mints_quiet {p : AuthProcess α} (h : p.Only AuthCall.StoresNothing) : Mints p :=
  fun log hlog => (quiet_wp h log hlog).mono fun _ _ _ => trivial

theorem mints_bind {p : AuthProcess α} {f : α → AuthProcess β} (hp : p.Only AuthCall.StoresNothing)
    (hf : ∀ a, Mints (f a)) : Mints (p >>= f) := by
  intro log hlog
  apply (quiet_wp hp log hlog).bind
  · exact fun _ _ _ => trivial
  · exact fun a log' h => hf a log' h

theorem quiet_neutral {p : AuthProcess α} (h : IsNeutral p) : p.Only AuthCall.StoresNothing :=
  h.mono fun _ hc => hc.storesNothing

theorem mints_generateTokens (env : AuthEnv) (user : AuthUser) (req : RequestInfo)
    {f : TokenPair → AuthProcess β} (hf : ∀ pair, (f pair).Only AuthCall.StoresNothing) :
    Mints (generateTokens env user req >>= f) := by
  intro log hlog
  rw [wp_bind]
  refine ⟨permitted_of_storesNothing (by simp [AuthCall.StoresNothing]), ?_⟩
  rintro jti log₁ ⟨-, rfl⟩
  refine ⟨permitted_of_storesNothing (by simp [AuthCall.StoresNothing]), ?_⟩
  rintro clock log₂ ⟨-, rfl⟩
  refine ⟨?_, ?_⟩
  · rintro t userId expiresAt ⟨⟩
    refine ⟨by simp [Drew], ?_⟩
    apply not_stored_append _ (by simp [AuthCall.StoresNothing])
    exact not_stored_append hlog (by simp [AuthCall.StoresNothing])
  · rintro (e | u) log₃ ⟨-, rfl⟩
    · trivial
    · have hafter : ∀ pair log, (f pair).Wp Permitted (logged fun _ _ => True) (fun _ _ => True) log := by
        intro pair log
        apply (hf pair).keeps (J := fun _ => True) _ _ log trivial
        · exact fun log c hc => permitted_of_storesNothing hc
        · exact fun _ _ _ _ _ _ _ => trivial
      exact hafter _ _

variable (env : AuthEnv)

theorem mints_openSession (user : AuthUser) (req : RequestInfo) (rememberMe : Option Bool) :
    Mints (openSession env user req rememberMe) := by
  apply mints_generateTokens env user req
  intro pair
  apply only_bind (quiet_neutral (apart_storeLoginContext env user.id req).neutral)
  intro _
  exact only_pure _

theorem mints_register (dto : RegisterDto) (req : RequestInfo) : Mints (register env dto req) := by
  apply mints_bind (quiet_neutral (apart_findUserByEmail _).neutral)
  intro found
  cases found with
  | some user => exact mints_quiet (only_throw _)
  | none =>
    apply mints_bind (quiet_neutral (apart_bcryptHash _).neutral)
    intro hashedPassword
    apply mints_bind (only_request (by simp [AuthCall.StoresNothing]))
    intro user
    apply mints_bind (quiet_neutral (neutral_syncUserProjection user))
    intro _
    exact mints_openSession env user req none

theorem mints_login (dto : LoginDto) (req : RequestInfo) : Mints (login env dto req) := by
  apply mints_bind (quiet_neutral (neutral_authenticate env dto req))
  intro user
  split
  · apply mints_bind (quiet_neutral (apart_storeChallenge env _).neutral)
    intro challengeId
    exact mints_quiet (only_pure _)
  · split
    · split
      · exact mints_quiet (only_pure _)
      · apply mints_bind (quiet_neutral apart_generateMfaCode.neutral)
        intro code
        apply mints_bind (quiet_neutral (apart_storeChallenge env _).neutral)
        intro challengeId
        exact mints_quiet (only_pure _)
    · exact mints_openSession env user req none

theorem mints_googleSession (user : AuthUser) (profile : GoogleProfile) (req : RequestInfo) :
    Mints (googleSession env user profile req) := by
  unfold googleSession
  split
  · exact mints_quiet (only_pure _)
  · have hsign : ∀ user : AuthUser, Mints (do
        syncUserProjection user
        openSession env user req none) := by
      intro user
      apply mints_bind (quiet_neutral (neutral_syncUserProjection user))
      intro _
      exact mints_openSession env user req none
    split
    · exact hsign user
    · apply mints_bind (only_request (by simp [AuthCall.StoresNothing]))
      exact hsign

theorem mints_google (profile : GoogleProfile) (req : RequestInfo) :
    Mints (findOrCreateGoogleUser env profile req) := by
  unfold findOrCreateGoogleUser
  split
  · exact mints_quiet (only_pure _)
  · apply mints_bind (quiet_neutral (apart_findUserByEmail _).neutral)
    intro found
    cases found with
    | some user => exact mints_googleSession env user profile req
    | none =>
      show Mints (ite _ _ _)
      split
      · exact mints_quiet (only_pure _)
      · apply mints_bind (quiet_neutral apart_randomUUID.neutral)
        intro randomPassword
        apply mints_bind (quiet_neutral (apart_bcryptHash _).neutral)
        intro hashedPassword
        apply mints_bind (only_request (by simp [AuthCall.StoresNothing]))
        intro user
        exact mints_googleSession env user profile req

theorem mints_verifyAdminMfa (challengeId code : String) (req : RequestInfo) :
    Mints (verifyAdminMfa env challengeId code req) := by
  apply mints_bind (quiet_neutral apart_ensureRedisConnected.neutral)
  intro _
  apply mints_bind (quiet_neutral (apart_redisGet _).neutral)
  intro raw
  split
  · rename_i payload
    split
    · apply mints_bind (quiet_neutral (apart_redisDel _).neutral)
      intro _
      exact mints_quiet (only_throw _)
    · apply mints_bind (quiet_neutral (apart_findUserById _).neutral)
      intro found
      cases found with
      | none => exact mints_quiet (only_throw _)
      | some user =>
        show Mints (ite _ _ _)
        split
        · exact mints_quiet (only_throw _)
        · apply mints_bind (quiet_neutral (apart_checkCode env payload user code).neutral)
          intro isValidCode
          split
          · apply mints_bind (quiet_neutral (apart_redisDel _).neutral)
            intro _
            exact mints_openSession env user req _
          · exact mints_quiet (quiet_neutral (apart_rejectCode env challengeId).neutral)
  · exact mints_quiet (only_throw _)

theorem mints_rotate (decoded : RefreshPayload) (row : RefreshRow) (user : AuthUser)
    (req : RequestInfo) : Mints (rotate env decoded row user req) := by
  apply mints_bind (quiet_neutral apart_now.neutral)
  intro t
  split
  · apply mints_quiet
    apply only_bind (only_request (by simp [AuthCall.StoresNothing]))
    intro _
    exact only_throw _
  · apply mints_bind (only_request (by simp [AuthCall.StoresNothing]))
    intro _
    apply mints_bind (quiet_neutral apart_now.neutral)
    intro t'
    apply mints_bind (only_request (by simp [AuthCall.StoresNothing]))
    intro _
    apply mints_generateTokens env user req
    intro pair
    exact only_pure _

theorem mints_refreshTokens (token : Bearer) (req : RequestInfo) :
    Mints (refreshTokens env token req) := by
  have hreuse : ∀ sub, Mints (reuseDetected sub) := by
    intro sub
    apply mints_quiet
    apply only_bind (only_request (by simp [AuthCall.StoresNothing]))
    intro _
    exact only_throw _
  apply mints_bind (quiet_neutral apart_now.neutral)
  intro t
  split
  · exact mints_quiet (only_throw _)
  · rename_i decoded _
    apply mints_bind (quiet_neutral apart_ensureRedisConnected.neutral)
    intro _
    apply mints_bind (quiet_neutral (apart_redisGet _).neutral)
    intro wasUsed
    split
    · exact hreuse _
    · apply mints_bind (only_request (by simp [AuthCall.StoresNothing]))
      intro stored
      cases stored with
      | none => exact hreuse _
      | some found => exact mints_rotate env decoded found.1 found.2 req

theorem quiet_logout (token : Bearer) : (logout token).Only AuthCall.StoresNothing := by
  unfold logout
  split
  · exact only_pure _
  · apply only_bind
    · apply only_tryCatch (only_request (by simp [AuthCall.StoresNothing]))
      intro _
      exact only_pure _
    · intro _
      exact only_pure _

theorem quiet_logoutAll (userId : String) :
    (logoutAllSessions userId).Only AuthCall.StoresNothing := by
  apply only_bind (only_request (by simp [AuthCall.StoresNothing]))
  intro _
  exact only_pure _

theorem mints_handle (q : AuthRequest × RequestInfo) : Mints (AuthRequest.handle env q) := by
  obtain ⟨request, req⟩ := q
  cases request with
  | register dto => exact mints_register env dto req
  | login dto => exact mints_login env dto req
  | google profile => exact mints_google env profile req
  | verifyAdminMfa challengeId code => exact mints_verifyAdminMfa env challengeId code req
  | refresh token => exact mints_refreshTokens env token req
  | logout token => exact mints_quiet (quiet_logout token)
  | logoutAll userId => exact mints_quiet (quiet_logoutAll userId)

/-- A request to log out everywhere that is answered has deleted the tokens of its user. -/
def Cleared (log : AuthLog) (userId : String) : Prop :=
  (⟨AuthCall.deleteTokensOf userId, .ok ()⟩ : Event authInterface) ∈ log

theorem logoutAll_cleared (userId : String) :
    (logoutAllSessions userId).Wp (fun _ _ => True) (logged fun _ _ => True)
      (Post (fun _ log => Cleared log userId) fun _ _ => True) [] := by
  rw [logoutAllSessions, wp_bind]
  refine ⟨trivial, ?_⟩
  rintro r log ⟨-, rfl⟩
  cases r with
  | error e => trivial
  | ok u => exact List.mem_singleton_self _

/-- The service, and what else ends a session: rows that go with a deleted user. -/
def sessionServer :
    Server authInterface Failure AuthReply (AuthRequest × RequestInfo) AuthStore where
  handler := AuthRequest.handle env
  effect := fun _ _ c s r s' => mayServe c s r s'
  change := fun s s' => s.Passes s' ∨ ∃ p, s' = s.eraseTokens p

/-- A refresh that is answered has found the row of its token. -/
def Answered (q : AuthRequest × RequestInfo) (log : AuthLog) : Prop :=
  (∀ token, q.1 = .refresh token → ∃ row, FoundRow log token row) ∧
    ∀ userId, q.1 = .logoutAll userId → Cleared log userId

theorem handle_answered (q : AuthRequest × RequestInfo) :
    (AuthRequest.handle env q).Wp (fun _ _ => True) (logged fun _ _ => True)
      (Post (fun _ log => Answered q log) fun _ _ => True) [] := by
  have hrefresh : (AuthRequest.handle env q).Wp (fun _ _ => True) (logged fun _ _ => True)
      (Post (fun _ log => ∀ token, q.1 = .refresh token → ∃ row, FoundRow log token row)
        fun _ _ => True) [] := by
    have h := (Rotation.contract env).holds q
    apply (h.permits_mono fun _ _ _ => trivial).mono
    rintro (e | reply) log hout
    · trivial
    · intro token ht
      exact (hout token ht).found
  have hclear : (AuthRequest.handle env q).Wp (fun _ _ => True) (logged fun _ _ => True)
      (Post (fun _ log => ∀ userId, q.1 = .logoutAll userId → Cleared log userId)
        fun _ _ => True) [] := by
    obtain ⟨request, req⟩ := q
    by_cases hq : ∃ userId, request = .logoutAll userId
    · obtain ⟨userId, rfl⟩ := hq
      apply (logoutAll_cleared userId).mono
      rintro (e | reply) log hout
      · trivial
      · rintro userId' ⟨⟩
        exact hout
    · apply (wp_true (fun _ _ => trivial) _ _).mono
      rintro (e | reply) log -
      · trivial
      · intro userId hu
        exact (hq ⟨userId, hu⟩).elim
  apply (Wp.and hrefresh hclear).mono
  rintro (e | reply) log ⟨h, h'⟩
  · trivial
  · exact ⟨h, h'⟩

def contract : (sessionServer env).Contract where
  fits := fun _ _ => True
  permits := fun _ => Permitted
  returns := fun q _ log => Answered q log
  sound := fun _ _ _ _ _ _ _ => trivial
  holds := by
    intro q
    have hnil : ¬ Stored [] := by simp [Stored]
    have hboth := (handle_answered env q).permits_and (mints_handle env q [] hnil)
    exact hboth.permits_mono fun _ _ h => h.2

end Contract

section Invariant

variable {env : AuthEnv} {x y : AuthStage} {l : AuthLabel} {t : RefreshPayload}

/-- The `jti` of the token is drawn, and no request that drew it will store a token. -/
structure Used (t : RefreshPayload) (x : AuthStage) : Prop where
  drawn : t.jti ∈ x.state.drawn
  stored : ∀ task ∈ x.tasks, Drew task.log t.jti → Stored task.log

/-- Every value is drawn by one request, and the value of a stored token is used up. -/
structure Sound (x : AuthStage) : Prop where
  drawn : ∀ task ∈ x.tasks, ∀ jti, Drew task.log jti → jti ∈ x.state.drawn
  alone : ∀ (i j : Nat) (p q : AuthTask) jti, x.tasks[i]? = some p → x.tasks[j]? = some q →
    Drew p.log jti → Drew q.log jti → i = j
  used : ∀ row ∈ x.state.tokens.rows, Used row.token x

theorem grows_of_step (h : (sessionServer env).Step x l y) :
    x.state.drawn ⊆ y.state.drawn ∧ ∀ row ∈ y.state.tokens.rows, row ∈ x.state.tokens.rows ∨
      ∃ i e r, l = .act i (AuthCall.createRefreshToken row.token row.userId e) r := by
  cases h with
  | begin q => exact ⟨fun _ hj => hj, fun row hm => .inl hm⟩
  | act hi he =>
    obtain ⟨hdrawn, hrows⟩ := grows_of_mayServe he
    refine ⟨hdrawn, fun row hm => ?_⟩
    rcases hrows row hm with hm | ⟨e, rfl⟩
    · exact .inl hm
    · exact .inr ⟨_, e, _, rfl⟩
  | crash e hi hl => exact ⟨fun _ hj => hj, fun row hm => .inl hm⟩
  | change hc =>
    rcases hc with hp | ⟨p, rfl⟩
    · refine ⟨fun jti hj => ?_, fun row hm => .inl ?_⟩
      · exact hp.drawn ▸ hj
      · exact hp.tokens ▸ hm
    · exact ⟨fun _ hj => hj, fun row hm => .inl ((Table.mem_erase _ _ _).mp hm).1⟩

theorem fresh_of_step (h : (sessionServer env).Step x l y) {task : AuthTask} (ht : task ∈ y.tasks)
    {jti : String} (hd : Drew task.log jti) :
    (∃ old ∈ x.tasks, Drew old.log jti) ∨ jti ∉ x.state.drawn ∧ jti ∈ y.state.drawn := by
  rcases h.mem_log ht hd with hold | ⟨q, log, he⟩
  · exact .inl hold
  · rcases he with ⟨-, hfresh, hs⟩ | ⟨hfail, -⟩
    · exact .inr ⟨hfresh, hs ▸ List.mem_cons_self⟩
    · exact hfail.elim

theorem stored_lasts {log : AuthLog} {c : AuthCall} {r : c.Answer} (h : Stored log) :
    Stored (log ++ [⟨c, r⟩]) := by
  obtain ⟨t, userId, expiresAt, r', hm⟩ := h
  exact ⟨t, userId, expiresAt, r', List.mem_append_left _ hm⟩

theorem used_step (hx : Used t x) (h : (sessionServer env).Step x l y) : Used t y := by
  refine ⟨(grows_of_step h).1 hx.drawn, ?_⟩
  cases h with
  | begin q =>
    intro task hm hd
    rcases List.mem_append.mp hm with hm | hm
    · exact hx.stored task hm hd
    · obtain rfl := List.mem_singleton.mp hm
      cases hd
  | act hi he =>
    intro task hm hd
    rcases mem_set_cases hm with rfl | ⟨j, -, hj⟩
    · rcases List.mem_append.mp hd with hd | hd
      · exact stored_lasts (hx.stored _ (List.mem_of_getElem? hi) hd)
      · -- the value is not new, so the answer was no draw
        obtain ⟨rfl, hr⟩ := Sigma.mk.inj (List.mem_singleton.mp hd)
        obtain rfl := eq_of_heq hr
        rcases he with ⟨-, hfresh, -⟩ | ⟨hfail, -⟩
        · exact (hfresh hx.drawn).elim
        · exact hfail.elim
    · exact hx.stored task (List.mem_of_getElem? hj) hd
  | crash e hi hl =>
    intro task hm hd
    rcases mem_set_cases hm with rfl | ⟨j, -, hj⟩
    · have hlog := hx.stored _ (List.mem_of_getElem? hi)
      exact hlog hd
    · exact hx.stored task (List.mem_of_getElem? hj) hd
  | change hc => exact hx.stored

theorem no_new (hx : Used t x) (hk : ∀ task ∈ x.tasks, (contract env).Kept task)
    (h : (sessionServer env).Step x l y) {row : RefreshRow} (hrow : row ∈ y.state.tokens.rows)
    (ht : row.token = t) : row ∈ x.state.tokens.rows := by
  rcases (grows_of_step h).2 row hrow with hold | ⟨i, e, r, rfl⟩
  · exact hold
  · obtain ⟨q, log, k, hi⟩ := h.act_inv
    have hm := List.mem_of_getElem? hi
    have hpermits : Permitted log (.createRefreshToken row.token row.userId e) := (hk _ hm).1
    obtain ⟨hdrew, hfirst⟩ := hpermits _ _ _ rfl
    rw [ht] at hdrew
    exact (hfirst (hx.stored _ hm hdrew)).elim

theorem alone_step (hx : Sound x) (h : (sessionServer env).Step x l y) (i j : Nat)
    (p q : AuthTask) (jti : String) (hi : y.tasks[i]? = some p) (hj : y.tasks[j]? = some q)
    (hp : Drew p.log jti) (hq : Drew q.log jti) : i = j := by
  cases h with
  | begin request =>
    rcases getElem?_append_cases hi with ⟨-, rfl⟩ | hi
    · cases hp
    · rcases getElem?_append_cases hj with ⟨-, rfl⟩ | hj
      · cases hq
      · exact hx.alone i j p q jti hi hj hp hq
  | @act s s' tasks a request log c k r ha he =>
    -- a new value is drawn by no other request
    have hnew : ∀ (b : Nat) (other : AuthTask), b ≠ a → tasks[b]? = some other →
        Drew (log ++ [⟨c, r⟩]) jti → Drew other.log jti → False := by
      intro b other hb hother hd hd'
      rcases List.mem_append.mp hd with hd | hd
      · exact hb (hx.alone b a _ _ jti hother ha hd' hd)
      · obtain ⟨rfl, hr⟩ := Sigma.mk.inj (List.mem_singleton.mp hd)
        obtain rfl := eq_of_heq hr
        rcases he with ⟨-, hfresh, -⟩ | ⟨hfail, -⟩
        · exact hfresh (hx.drawn other (List.mem_of_getElem? hother) _ hd')
        · exact hfail.elim
    rcases getElem?_set_cases hi with ⟨rfl, rfl⟩ | ⟨hia, hold⟩
    · rcases getElem?_set_cases hj with ⟨rfl, -⟩ | ⟨hja, hj⟩
      · rfl
      · exact (hnew j q hja hj hp hq).elim
    · rcases getElem?_set_cases hj with ⟨rfl, rfl⟩ | ⟨-, hj⟩
      · exact (hnew i p hia hold hq hp).elim
      · exact hx.alone i j p q jti hold hj hp hq
  | @crash s tasks a task e ha hl =>
    rcases getElem?_set_cases hi with ⟨rfl, rfl⟩ | ⟨-, hold⟩
    · rcases getElem?_set_cases hj with ⟨rfl, -⟩ | ⟨-, hj⟩
      · rfl
      · exact hx.alone i j task q jti ha hj hp hq
    · rcases getElem?_set_cases hj with ⟨rfl, rfl⟩ | ⟨-, hj⟩
      · exact hx.alone i j p task jti hold ha hp hq
      · exact hx.alone i j p q jti hold hj hp hq
  | change hc => exact hx.alone i j p q jti hi hj hp hq

theorem used_of_new (hx : Sound x) (hk : ∀ task ∈ x.tasks, (contract env).Kept task) {i e : Nat}
    {userId : String} {r : Except Failure Unit}
    (h : (sessionServer env).Step x (.act i (AuthCall.createRefreshToken t userId e) r) y) :
    Used t y := by
  obtain ⟨q, log, k, hi, hi'⟩ := h.act_logs
  have hm := List.mem_of_getElem? hi
  have hpermits : Permitted log (.createRefreshToken t userId e) := (hk _ hm).1
  have hdrew : Drew log t.jti := (hpermits _ _ _ rfl).1
  refine ⟨(grows_of_step h).1 (hx.drawn _ hm _ hdrew), ?_⟩
  intro task htask hd
  -- the request that drew the value is the one that has just stored the token
  obtain ⟨j, hj⟩ := List.mem_iff_getElem?.mp htask
  have hij : i = j := alone_step hx h i j _ task _ hi' hj (List.mem_append_left _ hdrew) hd
  subst hij
  obtain rfl := Option.some.inj (hi'.symm.trans hj)
  exact ⟨t, userId, e, r, List.mem_append_right _ (List.mem_singleton_self _)⟩

theorem sound_step (x : AuthStage) (l : AuthLabel) (y : AuthStage)
    (hx : Sound x ∧ ∀ task ∈ x.tasks, (contract env).Kept task)
    (h : (sessionServer env).Step x l y) :
    Sound y ∧ ∀ task ∈ y.tasks, (contract env).Kept task := by
  obtain ⟨hsound, hk⟩ := hx
  refine ⟨⟨?_, alone_step hsound h, ?_⟩, (contract env).kept_step x l y hk h⟩
  · intro task htask jti hd
    rcases fresh_of_step h htask hd with ⟨old, hold, hd'⟩ | ⟨-, hnow⟩
    · exact (grows_of_step h).1 (hsound.drawn old hold jti hd')
    · exact hnow
  · intro row hrow
    rcases (grows_of_step h).2 row hrow with hold | ⟨i, e, r, rfl⟩
    · exact used_step (hsound.used row hold) h
    · exact used_of_new hsound hk h

end Invariant

section Sessions

variable {env : AuthEnv} {s : AuthStore} {x y z : AuthStage} {t : RefreshPayload}
  {trace : List (AuthLabel × AuthStage)}

theorem sound_start (hs : ∀ row ∈ s.tokens.rows, row.token.jti ∈ s.drawn) : Sound ⟨s, []⟩ where
  drawn := by simp
  alone := by simp
  used := fun row hrow => ⟨hs row hrow, by simp⟩

theorem rows_shrink (hk : ∀ task ∈ x.tasks, (contract env).Kept task) (hx : Used t x)
    (h : Run (sessionServer env).Step x trace y) :
    Used t y ∧ (∀ task ∈ y.tasks, (contract env).Kept task) ∧
      ∀ row ∈ y.state.tokens.rows, row.token = t → row ∈ x.state.tokens.rows := by
  refine h.invariant (J := fun y => Used t y ∧ (∀ task ∈ y.tasks, (contract env).Kept task) ∧
    ∀ row ∈ y.state.tokens.rows, row.token = t → row ∈ x.state.tokens.rows)
    ⟨hx, hk, fun row hrow _ => hrow⟩ ?_
  rintro y l z ⟨hy, hky, hrows⟩ hstep
  refine ⟨used_step hy hstep, (contract env).kept_step y l z hky hstep, ?_⟩
  intro row hrow ht
  exact hrows row (no_new hy hky hstep hrow ht) ht

theorem found_before {l : AuthLabel} (h : (sessionServer env).Step y l z)
    (hgone : ∀ row ∈ y.state.tokens.rows, row.token ≠ t) {j : Nat} {task : AuthTask}
    (hj : z.tasks[j]? = some task) {row : RefreshRow} (hfound : FoundRow task.log (.signed t) row) :
    ∃ old, y.tasks[j]? = some old ∧ FoundRow old.log (.signed t) row := by
  obtain ⟨e, he, hlook⟩ := hfound
  rcases h.log_at hj he with ⟨old, hold, -, he⟩ | ⟨q, log, heffect⟩
  · exact ⟨old, hold, e, he, hlook⟩
  · obtain ⟨user, rfl⟩ := eq_of_lookedUp hlook
    obtain ⟨-, hrow, hrt, -⟩ := lookup_of_mayServe heffect
    exact (hgone row hrow hrt).elim

theorem stays_gone (hk : ∀ task ∈ x.tasks, (contract env).Kept task) (hx : Used t x)
    (hgone : ∀ row ∈ x.state.tokens.rows, row.token ≠ t)
    (h : Run (sessionServer env).Step x trace y) : ∀ row ∈ y.state.tokens.rows, row.token ≠ t := by
  intro row hrow ht
  exact hgone row ((rows_shrink hk hx h).2.2 row hrow ht) ht

/-- Whoever has found the row has found it before it was gone. -/
theorem found_since (hk : ∀ task ∈ x.tasks, (contract env).Kept task) (hx : Used t x)
    (hgone : ∀ row ∈ x.state.tokens.rows, row.token ≠ t)
    (h : Run (sessionServer env).Step x trace y) {j : Nat} {task : AuthTask} {row : RefreshRow}
    (hj : y.tasks[j]? = some task) (hfound : FoundRow task.log (.signed t) row) :
    ∃ old, x.tasks[j]? = some old ∧ FoundRow old.log (.signed t) row := by
  induction h generalizing task with
  | nil => exact ⟨task, hj, hfound⟩
  | snoc hr hs ih =>
    obtain ⟨old, hold, hfound⟩ := found_before hs (stays_gone hk hx hgone hr) hj hfound
    exact ih hold hfound

theorem cleared_rows (hk : ∀ task ∈ x.tasks, (contract env).Kept task) {row : RefreshRow}
    (hrow : row ∈ x.state.tokens.rows) (hx : Used row.token x)
    (h : Run (sessionServer env).Step x trace y) :
    ∀ (j : Nat) (task : AuthTask), x.tasks.length ≤ j → y.tasks[j]? = some task →
      Cleared task.log row.userId → ∀ r ∈ y.state.tokens.rows, r.token ≠ row.token := by
  induction h with
  | nil =>
    intro j task hle hj
    rw [List.getElem?_eq_none hle] at hj
    cases hj
  | @snoc trace y z l hr hs ih =>
    obtain ⟨hy, hky, hrows⟩ := rows_shrink hk hx hr
    intro j task hle hj hcleared r hrz hrt
    have hry := no_new hy hky hs hrz hrt
    rcases hs.log_at hj hcleared with ⟨old, hold, -, hcleared⟩ | ⟨q, log, heffect⟩
    · exact ih j old hle hold hcleared r hry hrt
    · -- the rows of the user go now, and the row of the token is one of them
      have hsame : r = row := List.inj_on_of_nodup_map x.state.unique (hrows r hry hrt) hrow hrt
      subst hsame
      rcases heffect with ⟨-, hs⟩ | ⟨⟨e, hfail⟩, -⟩
      · rw [hs] at hrz
        simpa using ((Table.mem_erase _ _ _).mp hrz).2
      · cases hfail

/-- The row of a token has gone, or its user has logged out everywhere since the stage. -/
def Ended (x y : AuthStage) (row : RefreshRow) : Prop :=
  (∀ r ∈ y.state.tokens.rows, r.token ≠ row.token) ∨
    ∃ (j : Nat) (task : AuthTask) (reply : AuthReply), x.tasks.length ≤ j ∧
      y.tasks[j]? = some task ∧ task.request.1 = .logoutAll row.userId ∧ task.rest = .ret reply

theorem gone_of_ended (hk : ∀ task ∈ x.tasks, (contract env).Kept task) {row : RefreshRow}
    (hrow : row ∈ x.state.tokens.rows) (hx : Used row.token x)
    (h : Run (sessionServer env).Step x trace y) (hended : Ended x y row) :
    ∀ r ∈ y.state.tokens.rows, r.token ≠ row.token := by
  rcases hended with hgone | ⟨j, ⟨request, log, rest⟩, reply, hle, hj, hq, hret⟩
  · exact hgone
  · obtain rfl : rest = .ret reply := hret
    have hkept := (rows_shrink hk hx h).2.1 _ (List.mem_of_getElem? hj)
    have hanswered : Answered request log := hkept
    exact cleared_rows hk hrow hx h j _ hle hj (hanswered.2 _ hq)

/-- A refresh token whose row is gone has no row ever again, and only the refreshes that had found
the row are still answered with a new pair. -/
theorem revoked_stay_revoked (hs : ∀ row ∈ s.tokens.rows, row.token.jti ∈ s.drawn)
    (h : Run (sessionServer env).Step ⟨s, []⟩ trace x) {row : RefreshRow}
    (hrow : row ∈ x.state.tokens.rows) {between after : List (AuthLabel × AuthStage)}
    (hbetween : Run (sessionServer env).Step x between y) (hended : Ended x y row)
    (hafter : Run (sessionServer env).Step y after z) :
    (∀ r ∈ z.state.tokens.rows, r.token ≠ row.token) ∧
      ∀ (j : Nat) (task : AuthTask) (reply : AuthReply), z.tasks[j]? = some task →
        task.request.1 = .refresh (.signed row.token) → task.rest = .ret reply →
        ∃ old found, y.tasks[j]? = some old ∧ FoundRow old.log (.signed row.token) found := by
  obtain ⟨hsound, hk⟩ := h.invariant ⟨sound_start hs, by simp⟩ sound_step
  have hused := hsound.used row hrow
  obtain ⟨husedy, hky, -⟩ := rows_shrink hk hused hbetween
  have hgone := gone_of_ended hk hrow hused hbetween hended
  refine ⟨stays_gone hky husedy hgone hafter, ?_⟩
  rintro j ⟨request, log, rest⟩ reply hj hq hret
  obtain rfl : rest = .ret reply := hret
  have hkept := (rows_shrink hky husedy hafter).2.1 _ (List.mem_of_getElem? hj)
  have hanswered : Answered request log := hkept
  obtain ⟨found, hf⟩ := hanswered.1 _ hq
  obtain ⟨old, hold, hf⟩ := found_since hky husedy hgone hafter hj hf
  exact ⟨old, found, hold, hf⟩

end Sessions

section Sample

private def loggedInUser : AuthUser :=
  { id := "u", email := "a@b.c", password := "hash of pw", firstName := "A", lastName := "B" }

private theorem loggedInUser_valid : loggedInUser.Valid := by
  simp [loggedInUser, AuthUser.Valid]

private def loggedInToken : RefreshPayload := ⟨"u", "j", 604900⟩

private def loggedInStore : AuthStore where
  users := ⟨[loggedInUser], by decide⟩
  valid := List.forall_mem_singleton.mpr loggedInUser_valid
  tokens := ⟨[⟨"r", loggedInToken, "u", 604900⟩], by decide⟩
  unique := by decide
  owner := by simp [loggedInUser]
  redis := fun _ => none
  clock := 100
  drawn := ["j"]

private def fromBrowser (request : AuthRequest) : AuthRequest × RequestInfo :=
  (request, ⟨"f", "1.2.3.4", "agent", none⟩)

private theorem logout_run : ∃ trace, Run (sessionServer .sample).Step ⟨loggedInStore, []⟩ trace
    ⟨loggedInStore.eraseTokens fun row => row.userId = "u",
      [⟨fromBrowser (.logoutAll "u"), [⟨AuthCall.deleteTokensOf "u", .ok ()⟩],
        .ret (.message "Logged out from all sessions")⟩]⟩ := by
  have hbegin : (sessionServer .sample).Step ⟨loggedInStore, []⟩ _ _ :=
    .begin (fromBrowser (.logoutAll "u"))
  refine ⟨_, (Run.single hbegin).snoc (l := .act 0 (AuthCall.deleteTokensOf "u") (.ok ())) ?_⟩
  exact Server.Step.act_last (S := sessionServer .sample) (c := AuthCall.deleteTokensOf "u")
    (r := .ok ()) rfl (.inl ⟨rfl, rfl⟩)

/-- The token is presented after its user has logged out everywhere. -/
theorem revoked_stay_revoked_once : ∃ trace y,
    Run (sessionServer .sample).Step ⟨loggedInStore, []⟩ trace y ∧
    (y.tasks.map fun task => task.request.1) = [.logoutAll "u", .refresh (.signed loggedInToken)] ∧
    ∀ (j : Nat) (task : AuthTask) (reply : AuthReply), y.tasks[j]? = some task →
      task.request.1 = .refresh (.signed loggedInToken) → task.rest ≠ .ret reply := by
  obtain ⟨trace, hlogout⟩ := logout_run
  refine ⟨_, _, hlogout.snoc (.begin (fromBrowser (.refresh (.signed loggedInToken)))), rfl, ?_⟩
  intro j task reply hj hq hret
  have hrow : (⟨"r", loggedInToken, "u", 604900⟩ : RefreshRow) ∈ loggedInStore.tokens.rows :=
    List.mem_singleton_self _
  obtain ⟨old, found, hold, hfound⟩ := (revoked_stay_revoked (by decide) .nil hrow hlogout
    (.inr ⟨0, _, _, by simp, rfl, rfl, rfl⟩)
    (.single (.begin (fromBrowser (.refresh (.signed loggedInToken)))))).2 j task reply hj hq hret
  obtain rfl : j = 0 := by
    have hlt := (List.getElem?_eq_some_iff.mp hold).1
    simpa using hlt
  obtain rfl := Option.some.inj hold
  simp [lookedUp] at hfound

end Sample

end CloudVM.Revoked
