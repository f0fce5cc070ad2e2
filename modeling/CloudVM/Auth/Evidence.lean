import CloudVM.Auth.Server

/-!
# Whom a request opens a session for

Every way to sign in ends in `generateTokens`. What led there is read off the log of the request:
either it has read the account it signs in, or it has accepted a code for a challenge of the user.
-/

namespace CloudVM

open AuthStore Process AuthService

namespace SecondFactor

section Evidence

variable (env : AuthEnv)

def Saw (log : AuthLog) (c : AuthCall) (r : c.Answer) : Prop :=
  (⟨c, r⟩ : Event authInterface) ∈ log

/-- The request has checked the code of the challenge and it was right. -/
inductive CodeAccepted (log : AuthLog) (payload : MfaChallengePayload) (user : AuthUser)
    (code : String) : Prop
  | temporary (hmode : payload.mode = .temporary) (hc : payload.code = some code)
      (hne : code ≠ "") : CodeAccepted log payload user code
  | totp {t : Nat} {secret : String} (hmode : payload.mode = .totp) (ht : Saw log .now t)
      (hs : user.mfaSecret = some secret) (hv : env.verifyTotpCode secret code t = true) :
      CodeAccepted log payload user code
  | recovery {account : AuthUser} {hashes : List String} (hmode : payload.mode = .totp)
      (hu : Saw log (.findUserById payload.userId) (.ok (some account)))
      (hspend : spendHash env (normalizeRecoveryCode env code) account.mfaRecoveryCodeHashes =
        some hashes)
      (hs : Saw log (.setRecoveryHashes payload.userId hashes) (.ok ())) :
      CodeAccepted log payload user code

/-- A code for a challenge of the user was accepted in this request. -/
def Accepted (q : AuthRequest × RequestInfo) (log : AuthLog) (userId : String) : Prop :=
  ∃ challengeId code payload user, q.1 = .verifyAdminMfa challengeId code ∧
    Saw log (.redisGet (.mfaChallenge challengeId)) (.ok (some (.challenge payload))) ∧
    payload.fingerprint = q.2.fingerprint ∧ payload.userId = userId ∧
    Saw log (.findUserById userId) (.ok (some user)) ∧ CodeAccepted env log payload user code

/-- `login` goes on without a second factor. -/
def PassesLogin (user : AuthUser) : Prop :=
  hasTotp user = false ∧ (env.adminMfaEnabled && decide (user.role = .admin)) = false

/-- The request has read the account that it signs in without a code. -/
inductive Vouched (log : AuthLog) (userId : String) : AuthRequest → Prop
  | registered {dto : RegisterDto} {d : NewUser} {user : AuthUser}
      (h : Saw log (.createUser d) (.ok user)) (hid : user.id = userId) :
      Vouched log userId (.register dto)
  | password {dto : LoginDto} {email : String} {user : AuthUser}
      (h : Saw log (.findUserByEmail email) (.ok (some user))) (hid : user.id = userId)
      (hp : PassesLogin env user) : Vouched log userId (.login dto)
  | google {profile : GoogleProfile} {email : String} {user : AuthUser}
      (h : Saw log (.findUserByEmail email) (.ok (some user))) (hid : user.id = userId) :
      Vouched log userId (.google profile)
  | googleNew {profile : GoogleProfile} {d : NewUser} {user : AuthUser}
      (h : Saw log (.createUser d) (.ok user)) (hid : user.id = userId) :
      Vouched log userId (.google profile)
  | token {t : RefreshPayload} {row : RefreshRow} {user : AuthUser}
      (h : Saw log (.findRefreshToken (.signed t)) (.ok (some (row, user))))
      (hid : user.id = userId) : Vouched log userId (.refresh (.signed t))

variable {env} {log log' : AuthLog} {userId : String}

theorem CodeAccepted.mono {payload : MfaChallengePayload} {user : AuthUser} {code : String}
    (h : CodeAccepted env log payload user code) (hsub : log ⊆ log') :
    CodeAccepted env log' payload user code := by
  cases h with
  | temporary hmode hc hne => exact .temporary hmode hc hne
  | totp hmode ht hs hv => exact .totp hmode (hsub ht) hs hv
  | recovery hmode hu hspend hs => exact .recovery hmode (hsub hu) hspend (hsub hs)

theorem Accepted.mono {q : AuthRequest × RequestInfo} (h : Accepted env q log userId)
    (hsub : log ⊆ log') : Accepted env q log' userId := by
  obtain ⟨challengeId, code, payload, user, hq, hp, hf, hid, hu, hc⟩ := h
  exact ⟨challengeId, code, payload, user, hq, hsub hp, hf, hid, hsub hu, hc.mono hsub⟩

theorem Vouched.mono {q : AuthRequest} (h : Vouched env log userId q) (hsub : log ⊆ log') :
    Vouched env log' userId q := by
  cases h with
  | registered h hid => exact .registered (hsub h) hid
  | password h hid hp => exact .password (hsub h) hid hp
  | google h hid => exact .google (hsub h) hid
  | googleNew h hid => exact .googleNew (hsub h) hid
  | token h hid => exact .token (hsub h) hid

end Evidence

section Contract

variable (env : AuthEnv) (q : AuthRequest × RequestInfo)

/-- A row that was asked for by id, or updated, has that id. -/
def Fits : (c : AuthCall) → c.Answer → Prop
  | .findUserById userId, r => ∀ user, r = .ok (some user) → user.id = userId
  | .setGoogleId userId _, r => ∀ user, r = .ok user → user.id = userId
  | _, _ => True

/-- A token is stored only for an account that was vouched for, or after an accepted code. -/
def Permitted (log : AuthLog) (c : AuthCall) : Prop :=
  ∀ t userId expiresAt, c = .createRefreshToken t userId expiresAt →
    Vouched env log userId q.1 ∨ Accepted env q log userId

/-- The rest of a request keeps to the permission from its log on. -/
abbrev Safe {α : Type} (p : AuthProcess α) (log : AuthLog) : Prop :=
  p.Wp (Permitted env q) (logged Fits) (fun _ _ => True) log

variable {env q} {log : AuthLog}

theorem permitted_of_storesNothing {c : AuthCall} (h : c.StoresNothing) : Permitted env q log c :=
  fun t u e hc => (h t u e hc).elim

theorem neutral_wp {α : Type} {p : AuthProcess α} (h : IsNeutral p) :
    p.Wp (Permitted env q) (logged Fits) (fun _ log' => log ⊆ log') log := by
  have hkeeps : p.Keeps (Permitted env q) (logged Fits) (fun log' => log ⊆ log') := by
    apply h.keeps
    · intro log' c hc
      exact permitted_of_storesNothing hc.storesNothing
    · intro c log₁ r log₂ _ hsub hlog
      obtain ⟨-, rfl⟩ := hlog
      exact fun e he => List.mem_append_left _ (hsub he)
  exact hkeeps log fun _ he => he

theorem safe_neutral {α : Type} {p : AuthProcess α} (h : IsNeutral p) : Safe env q p log :=
  (neutral_wp h).mono fun _ _ _ => trivial

theorem neutral_bind_wp {α β : Type} {p : AuthProcess α} {f : α → AuthProcess β}
    {Q : Except Failure β → AuthLog → Prop} (hp : IsNeutral p) (hQ : ∀ e log', Q (.error e) log')
    (hf : ∀ a log', log ⊆ log' → (f a).Wp (Permitted env q) (logged Fits) Q log') :
    (p >>= f).Wp (Permitted env q) (logged Fits) Q log := by
  apply (neutral_wp hp).bind
  · intro e log' _
    exact hQ e log'
  · intro a log' hsub
    exact hf a log' hsub

theorem safe_bind {α β : Type} {p : AuthProcess α} {f : α → AuthProcess β} (hp : IsNeutral p)
    (hf : ∀ a log', log ⊆ log' → Safe env q (f a) log') : Safe env q (p >>= f) log :=
  neutral_bind_wp hp (fun _ _ => trivial) hf

theorem safe_call {α β : Type} {c : AuthCall} {g : c.Answer → AuthProcess α}
    {f : α → AuthProcess β} (hc : c.StoresNothing)
    (h : ∀ r, Fits c r → Safe env q (g r >>= f) (log ++ [⟨c, r⟩])) :
    Safe env q ((.call c g : AuthProcess α) >>= f) log := by
  refine (wp_bind _ _ _ _).mpr ⟨permitted_of_storesNothing hc, fun r log' hlog => ?_⟩
  obtain ⟨hfits, rfl⟩ := hlog
  exact (wp_bind _ _ _ _).mp (h r hfits)

theorem safe_generateTokens {user : AuthUser} {req : RequestInfo}
    (h : Vouched env log user.id q.1 ∨ Accepted env q log user.id) :
    Safe env q (generateTokens env user req) log := by
  apply safe_call (c := .randomUUID) (by simp [AuthCall.StoresNothing])
  intro jti _
  apply safe_call (c := .now) (by simp [AuthCall.StoresNothing])
  intro t _
  refine (wp_bind _ _ _ _).mpr ⟨?_, fun r log' _ => ?_⟩
  · intro t' u e hc
    cases hc
    have hsub : log ⊆ log ++ [⟨AuthCall.randomUUID, jti⟩] ++ [⟨AuthCall.now, t⟩] := by
      rw [List.append_assoc]
      exact List.subset_append_left _ _
    exact h.imp (fun h => h.mono hsub) fun h => h.mono hsub
  · cases r <;> trivial

theorem safe_openSession {user : AuthUser} {req : RequestInfo} {rememberMe : Option Bool}
    (h : Vouched env log user.id q.1 ∨ Accepted env q log user.id) :
    Safe env q (openSession env user req rememberMe) log := by
  apply (safe_generateTokens h).bind
  · intro e log' _
    trivial
  · intro pair log' _
    apply safe_bind (apart_storeLoginContext env _ _).neutral
    intro _ _ _
    trivial

section Requests

variable (env) {req : RequestInfo}

private theorem saw_last {log : AuthLog} {c : AuthCall} {r : c.Answer} :
    Saw (log ++ [⟨c, r⟩]) c r := List.mem_append_right _ (List.mem_singleton_self _)

theorem safe_register (dto : RegisterDto) :
    Safe env (.register dto, req) (register env dto req) [] := by
  apply safe_bind (apart_findUserByEmail _).neutral
  intro found log₁ _
  cases found with
  | some user => trivial
  | none =>
    apply safe_bind (apart_bcryptHash _).neutral
    intro hashedPassword log₂ _
    apply safe_call (c := .createUser _) (by simp [AuthCall.StoresNothing])
    intro r _
    cases r with
    | error e => trivial
    | ok user =>
      apply safe_bind (neutral_syncUserProjection user)
      intro _ log₃ hsub
      exact safe_openSession (.inl (.registered (hsub saw_last) rfl))

private theorem refuseLogin_wp {α : Type} {q : AuthRequest × RequestInfo} {log : AuthLog}
    {Q : α → AuthLog → Prop} (email message : String) :
    (refuseLogin env email message : AuthProcess α).Wp (Permitted env q) (logged Fits)
      (Post Q fun _ _ => True) log := by
  apply neutral_bind_wp (apart_registerFailedLogin env email).neutral fun _ _ => trivial
  intro _ _ _
  exact trivial

private theorem afterPassword_wp {q : AuthRequest × RequestInfo} {log : AuthLog} (email : String)
    (user : AuthUser) :
    (afterPassword env email user req).Wp (Permitted env q) (logged Fits)
      (Post (fun u log' => u = user ∧ log ⊆ log') fun _ _ => True) log := by
  have htrans : ∀ {a b c : AuthLog}, a ⊆ b → b ⊆ c → a ⊆ c := fun h h' _ he => h' (h he)
  apply neutral_bind_wp (apart_clearFailedLogins env email).neutral fun _ _ => trivial
  intro _ log₁ h₁
  apply neutral_bind_wp (neutral_syncUserProjection user) fun _ _ => trivial
  intro _ log₂ h₂
  apply neutral_bind_wp (apart_evaluateLoginAnomaly env user.id req).neutral fun _ _ => trivial
  intro detected log₃ h₃
  split
  · exact trivial
  · exact ⟨rfl, htrans h₁ (htrans h₂ h₃)⟩

theorem authenticate_wp {q : AuthRequest × RequestInfo} (dto : LoginDto) :
    (authenticate env dto req).Wp (Permitted env q) (logged Fits)
      (Post (fun user log => ∃ email, Saw log (.findUserByEmail email) (.ok (some user)))
        fun _ _ => True) [] := by
  apply neutral_bind_wp (apart_assertNotLocked env _).neutral fun _ _ => trivial
  intro _ log₁ _
  apply neutral_bind_wp (apart_assertCaptchaIfNeeded env _ _).neutral fun _ _ => trivial
  intro _ log₂ _
  refine (wp_bind _ _ _ _).mpr ⟨permitted_of_storesNothing (by simp [AuthCall.StoresNothing]),
    fun r log₃ hlog => (wp_ofExcept _ _ _).mpr ?_⟩
  obtain ⟨-, rfl⟩ := hlog
  cases r with
  | error e => trivial
  | ok found =>
    cases found with
    | none => exact refuseLogin_wp env _ _
    | some user =>
      simp only [post_ok]
      split
      · exact refuseLogin_wp env _ _
      · split
        · exact refuseLogin_wp env _ _
        · apply (afterPassword_wp env _ user).mono
          intro r log₄ h
          cases r with
          | error e => trivial
          | ok u =>
            obtain ⟨rfl, hsub⟩ := h
            exact ⟨_, hsub saw_last⟩

theorem safe_login (dto : LoginDto) : Safe env (.login dto, req) (login env dto req) [] := by
  apply (authenticate_wp env dto).bind
  · intro e log _
    trivial
  · intro user log h
    obtain ⟨email, hsaw⟩ := h
    split
    · exact safe_bind (apart_storeChallenge env _).neutral fun _ _ _ => trivial
    · rename_i htotp
      split
      · split
        · trivial
        · apply safe_bind apart_generateMfaCode.neutral
          intro code log' _
          exact safe_bind (apart_storeChallenge env _).neutral fun _ _ _ => trivial
      · rename_i hadmin
        apply safe_openSession
        exact .inl (.password hsaw rfl ⟨by simpa using htotp, by simpa using hadmin⟩)

theorem safe_googleSession {q : AuthRequest × RequestInfo} {log : AuthLog} {user : AuthUser}
    (profile : GoogleProfile) (h : Vouched env log user.id q.1) :
    Safe env q (googleSession env user profile req) log := by
  unfold googleSession
  have hopen : ∀ (u : AuthUser) (log' : AuthLog), log ⊆ log' → u.id = user.id → Safe env q (do
      syncUserProjection u
      openSession env u req none) log' := by
    intro u log' hsub hid
    apply safe_bind (neutral_syncUserProjection u)
    intro _ log'' hsub'
    apply safe_openSession
    rw [hid]
    exact .inl (h.mono fun _ he => hsub' (hsub he))
  split
  · trivial
  · split
    · exact hopen user log (fun _ he => he) rfl
    · apply safe_call (c := .setGoogleId user.id profile.id) (by simp [AuthCall.StoresNothing])
      intro r hfits
      cases r with
      | error e => trivial
      | ok u => exact hopen u _ (List.subset_append_left _ _) (hfits u rfl)

theorem safe_google (profile : GoogleProfile) :
    Safe env (.google profile, req) (findOrCreateGoogleUser env profile req) [] := by
  unfold findOrCreateGoogleUser
  split
  · trivial
  · rename_i email _
    apply safe_call (c := .findUserByEmail email) (by simp [AuthCall.StoresNothing])
    intro r _
    cases r with
    | error e => trivial
    | ok found =>
      cases found with
      | some user => exact safe_googleSession env profile (.google saw_last rfl)
      | none =>
        simp only [Process.ofExcept_ok, Process.ret_bind]
        split
        · trivial
        · apply safe_bind apart_randomUUID.neutral
          intro randomPassword log₁ _
          apply safe_bind (apart_bcryptHash _).neutral
          intro hashedPassword log₂ _
          apply safe_call (c := .createUser _) (by simp [AuthCall.StoresNothing])
          intro r _
          cases r with
          | error e => trivial
          | ok user => exact safe_googleSession env profile (.googleNew saw_last rfl)

theorem safe_spend {q : AuthRequest × RequestInfo} {log : AuthLog} {decoded : RefreshPayload}
    {row : RefreshRow} {user : AuthUser} (h : Vouched env log user.id q.1) :
    Safe env q (spend env decoded row user req) log := by
  apply safe_call (c := .deleteTokenRow row.id) (by simp [AuthCall.StoresNothing])
  intro r _
  cases r with
  | error e => trivial
  | ok u =>
    apply safe_bind apart_now.neutral
    intro t log₁ h₁
    apply safe_call (c := .redisSet _ _ _) (by simp [AuthCall.StoresNothing])
    intro r _
    cases r with
    | error e => trivial
    | ok u =>
      rw [Process.ofExcept_ok, Process.ret_bind]
      refine (wp_bind _ _ _ _).mpr ((safe_generateTokens (.inl (h.mono ?_))).mono ?_)
      · intro e he
        exact List.mem_append_left _ (h₁ (List.mem_append_left _ he))
      · intro r _ _
        cases r <;> trivial

theorem safe_refresh (token : Bearer) :
    Safe env (.refresh token, req) (refreshTokens env token req) [] := by
  have hreuse : ∀ (sub : String) (log : AuthLog),
      Safe env (.refresh token, req) (reuseDetected sub) log := by
    intro sub log
    apply safe_call (c := .deleteTokensOf sub) (by simp [AuthCall.StoresNothing])
    intro r _
    cases r <;> trivial
  apply safe_bind apart_now.neutral
  intro t log₁ _
  cases token with
  | other text => trivial
  | signed t' =>
    cases verify (.signed t') t with
    | none => trivial
    | some decoded =>
      apply safe_bind apart_ensureRedisConnected.neutral
      intro _ log₂ _
      apply safe_bind (apart_redisGet _).neutral
      intro wasUsed log₃ _
      split
      · exact hreuse _ _
      · apply safe_call (c := .findRefreshToken (.signed t')) (by simp [AuthCall.StoresNothing])
        intro r _
        cases r with
        | error e => trivial
        | ok stored =>
          cases stored with
          | none => exact hreuse _ _
          | some found =>
            obtain ⟨row, user⟩ := found
            apply safe_bind apart_now.neutral
            intro t'' log₄ h₄
            have hvouched : Vouched env log₄ user.id (.refresh (.signed t')) :=
              .token (h₄ saw_last) rfl
            split
            · apply safe_call (c := .deleteTokenRow row.id) (by simp [AuthCall.StoresNothing])
              intro r _
              cases r <;> trivial
            · exact safe_spend env hvouched

theorem consumeRecoveryCode_wp {q : AuthRequest × RequestInfo} {log : AuthLog}
    {payload : MfaChallengePayload} (user : AuthUser) {code : String}
    (hmode : payload.mode = .totp) :
    (consumeRecoveryCode env payload.userId code).Wp (Permitted env q) (logged Fits)
      (Post (fun b log' => log ⊆ log' ∧ (b = true → CodeAccepted env log' payload user code))
        fun _ _ => True) log := by
  simp only [consumeRecoveryCode]
  split
  · exact ⟨fun _ he => he, by simp⟩
  · refine (wp_bind _ _ _ _).mpr ⟨permitted_of_storesNothing (by simp [AuthCall.StoresNothing]),
      fun r log₁ hlog => (wp_ofExcept _ _ _).mpr ?_⟩
    obtain ⟨-, rfl⟩ := hlog
    cases r with
    | error e => trivial
    | ok found =>
      cases found with
      | none => exact ⟨List.subset_append_left _ _, by simp⟩
      | some account =>
        simp only [post_ok]
        split
        · exact ⟨List.subset_append_left _ _, by simp⟩
        · rename_i hashes hspend
          refine (wp_bind _ _ _ _).mpr
            ⟨permitted_of_storesNothing (by simp [AuthCall.StoresNothing]),
              fun r log₂ hlog => (wp_ofExcept _ _ _).mpr ?_⟩
          obtain ⟨-, rfl⟩ := hlog
          cases r with
          | error e => trivial
          | ok u =>
            refine ⟨fun _ he => List.mem_append_left _ (List.mem_append_left _ he), fun _ => ?_⟩
            exact .recovery hmode (List.mem_append_left _ saw_last) hspend saw_last

theorem checkCode_wp {q : AuthRequest × RequestInfo} {log : AuthLog}
    (payload : MfaChallengePayload) (user : AuthUser) (code : String) :
    (checkCode env payload user code).Wp (Permitted env q) (logged Fits)
      (Post (fun b log' => log ⊆ log' ∧ (b = true → CodeAccepted env log' payload user code))
        fun _ _ => True) log := by
  unfold checkCode
  split
  · rename_i hmode
    refine (wp_bind _ _ _ _).mpr ⟨permitted_of_storesNothing (by simp [AuthCall.StoresNothing]),
      fun t log₁ hlog => ?_⟩
    obtain ⟨-, rfl⟩ := hlog
    simp only [wp_ret, post_ok]
    split
    · rename_i hv
      obtain ⟨secret, hs, hv⟩ := (Option.any_eq_true _ _).mp hv
      have hsecret : user.mfaSecret = some secret := (Option.filter_eq_some_iff.mp hs).1
      exact ⟨List.subset_append_left _ _, fun _ => .totp hmode saw_last hsecret hv⟩
    · apply (consumeRecoveryCode_wp env user hmode).bind
      · intro e log₂ _
        trivial
      · intro consumed log₂ h₂
        obtain ⟨hsub, hacc⟩ := h₂
        have hsub' : log ⊆ log₂ := fun _ he => hsub (List.mem_append_left _ he)
        cases consumed with
        | false => exact ⟨hsub', by simp⟩
        | true =>
          apply neutral_bind_wp (apart_logMfaAudit _ _).neutral fun _ _ => trivial
          intro _ log₃ h₃
          exact ⟨fun _ he => h₃ (hsub' he), fun _ => (hacc rfl).mono h₃⟩
  · rename_i hmode
    refine ⟨fun _ he => he, fun h => ?_⟩
    obtain ⟨hc, hne⟩ := Option.filter_eq_some_iff.mp (of_decide_eq_true h)
    exact .temporary hmode hc (of_decide_eq_true hne)

theorem safe_verifyAdminMfa (challengeId code : String) :
    Safe env (.verifyAdminMfa challengeId code, req) (verifyAdminMfa env challengeId code req)
      [] := by
  apply safe_bind apart_ensureRedisConnected.neutral
  intro _ log₁ _
  apply safe_call (c := .redisGet (.mfaChallenge challengeId)) (by simp [AuthCall.StoresNothing])
  intro r _
  cases r with
  | error e => trivial
  | ok raw =>
    rw [Process.ofExcept_ok, Process.ret_bind]
    split
    · rename_i payload _
      split
      · exact safe_bind (apart_redisDel _).neutral fun _ _ _ => trivial
      · rename_i hfp
        apply safe_call (c := .findUserById payload.userId) (by simp [AuthCall.StoresNothing])
        intro r hfits
        cases r with
        | error e => trivial
        | ok found =>
          cases found with
          | none => trivial
          | some user =>
            simp only [Process.ofExcept_ok, Process.ret_bind]
            split
            · trivial
            · apply (checkCode_wp env payload user code).bind
              · intro e log₂ _
                trivial
              · intro isValidCode log₂ h₂
                obtain ⟨hsub, hacc⟩ := h₂
                cases isValidCode with
                | false => exact safe_neutral (apart_rejectCode env challengeId).neutral
                | true =>
                  apply safe_bind (apart_redisDel _).neutral
                  intro _ log₃ h₃
                  apply safe_openSession
                  have hid : user.id = payload.userId := hfits user rfl
                  rw [hid]
                  refine .inr ⟨challengeId, code, payload, user, rfl, ?_, by simpa using hfp, rfl,
                    h₃ (hsub saw_last), (hacc rfl).mono h₃⟩
                  exact h₃ (hsub (List.mem_append_left _ saw_last))
    · trivial

theorem safe_logout (token : Bearer) : Safe env (.logout token, req) (logout token) [] := by
  unfold logout
  split
  · trivial
  · refine (wp_bind _ _ _ _).mpr ((wp_tryCatch _ _ _ _).mpr
      ⟨permitted_of_storesNothing (by simp [AuthCall.StoresNothing]), fun r log₁ _ => ?_⟩)
    cases r <;> trivial

theorem safe_logoutAll (userId : String) :
    Safe env (.logoutAll userId, req) (logoutAllSessions userId) [] := by
  apply safe_call (c := .deleteTokensOf userId) (by simp [AuthCall.StoresNothing])
  intro r _
  cases r <;> trivial

end Requests

end Contract

end SecondFactor

end CloudVM
