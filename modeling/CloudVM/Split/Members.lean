import CloudVM.Auth.Server
import CloudVM.Billing.User

/-!
# Two copies of an account

An admin changes the role and the activity of an account in the user service. The auth service
has its own row of the account, in another database or in a shared table, and pushes what it read
there to `syncFromAuth` after every login, Google login, registration and change of password.
A push in flight, and one that an operation can still make, carry the row as it was read.
-/

namespace CloudVM.Split

open AuthStore AuthService UserService Process

section Interface

/-- The calls of both services. -/
inductive MemberCall where
  | auth (c : AuthCall)
  | setPassword (userId hashedPassword : String)
  | users (c : SubscriptionCall)

@[reducible] def MemberCall.Answer : MemberCall → Type
  | .auth c => c.Answer
  | .setPassword _ _ => Except Failure AuthUser
  | .users c => c.Answer

@[reducible] def memberInterface : Interface where
  Call := MemberCall
  Answer := MemberCall.Answer

abbrev MemberProcess (α : Type) := Process memberInterface Failure α

variable {α : Type}

def ofAuth (p : AuthProcess α) : MemberProcess α := p.lift MemberCall.auth fun _ r => r

def ofUsers (p : SubscriptionProcess α) : MemberProcess α := p.lift MemberCall.users fun _ r => r

/-- An operation whose result goes to its caller. -/
def serving (p : MemberProcess α) : MemberProcess Unit := do
  let _ ← p
  pure ()

end Interface

section ChangePassword

variable (env : AuthEnv)

def assertCurrentPassword (userId password : String) : AuthProcess Unit := do
  match ← findUserById userId with
  | none => throw ⟨.unauthorized, "User not found or inactive"⟩
  | some user =>
    if !user.isActive then throw ⟨.unauthorized, "User not found or inactive"⟩
    else if env.bcryptCompare password user.password then pure ()
    else throw ⟨.unauthorized, "Invalid password for MFA re-authentication"⟩

def changePassword (userId oldPassword newPassword : String) : MemberProcess AuthReply := do
  ofAuth (assertCurrentPassword env userId oldPassword)
  let hashedPassword ← .call (.auth (.bcryptHash newPassword)) .ret
  let user ← .call (.setPassword userId hashedPassword) .ofExcept
  ofAuth (syncUserProjection user)
  pure (.message "Password changed successfully")

end ChangePassword

section State

/-- What an admin has replaced and set in an account; nothing recorded for a field that no admin
has written. -/
structure Ruling where
  role : Option (Role × Role) := none
  isActive : Option (Bool × Bool) := none
deriving DecidableEq, Repr

/-- A decision on an account: the fields that are written, with what they replace. -/
def Ruling.after (rulings : String → Ruling) (old : Account) (role : Option Role)
    (isActive : Option Bool) (v : String) : Ruling :=
  if v = old.id then
    { role := (role.map fun r => (old.role, r)) <|> (rulings v).role
      isActive := (isActive.map fun b => (old.isActive, b)) <|> (rulings v).isActive }
  else rulings v

/-- The auth service's store, the user service's own table, the pushes on their way, and a record
of the admins' decisions. -/
structure Members where
  store : AuthStore
  users : Table Account.id
  sent : List AuthUser
  rulings : String → Ruling

def accountOf (u : AuthUser) : Account := ⟨u.id, u.role, u.isActive⟩

/-- An `UPDATE` of a row that the auth service reads. -/
def Members.editRow (s : Members) (userId : String) (f : AuthUser → AuthUser)
    (hid : ∀ u, (f u).id = u.id) (hsecret : ∀ u, (f u).mfaSecret = u.mfaSecret) : Members :=
  { s with store := s.store.modifyUser userId f hid hsecret }

variable (shared : Bool)

/-- The user service's row of an account: one of its own table, or of the table of both. -/
def Members.account (s : Members) (userId : String) : Option Account :=
  if shared then (s.store.users.find? userId).map accountOf else s.users.find? userId

/-- `user.update` of the user service, and the decision it makes. -/
def Members.rule (s : Members) (old : Account) (role : Option Role) (isActive : Option Bool) :
    Members :=
  let ruled := { s with rulings := Ruling.after s.rulings old role isActive }
  if shared then
    ruled.editRow old.id
      (fun u => { u with role := role.getD u.role, isActive := isActive.getD u.isActive })
      (fun _ => rfl) fun _ => rfl
  else
    { ruled with
      users := s.users.modify (fun a => a.id = old.id)
        (fun a => { a with role := role.getD a.role, isActive := isActive.getD a.isActive })
        fun _ => rfl }

/-- `user.upsert` of `syncFromAuth`. Columns that are not modelled get any value. -/
inductive Synced (s : Members) (a : Account) : Members → Prop
  | own (hs : shared = false) : Synced s a { s with users := s.users.upsert a }
  | update (hs : shared = true) (email firstName lastName : String) (googleId : Option String)
      (mfaEnabled : Bool) :
      Synced s a (s.editRow a.id (fun u => { u with
        email, firstName, lastName, googleId, mfaEnabled, role := a.role, isActive := a.isActive })
        (fun _ => rfl) fun _ => rfl)
  | create (hs : shared = true) {u : AuthUser} (hu : accountOf u = a)
      (hid : u.id ∉ s.store.users.rows.map AuthUser.id) (hvalid : u.Valid) :
      Synced s a { s with store := s.store.insertUser u hid hvalid }

/-- How the calls of both services are answered. A write that reports an error may have been done.
`uuid()` gives a new account an id that no admin has ruled on. -/
def memberEffect : (c : MemberCall) → Members → c.Answer → Members → Prop
  | .auth (.syncUserProjection u), s, _, s' => s' = s ∨ s' = { s with sent := s.sent ++ [u] }
  | .auth c, s, r, s' => ∃ store, mayServe c s.store r store ∧ s' = { s with store } ∧
      ∀ u ∈ store.users.rows, u.id ∉ s.store.users.rows.map AuthUser.id → s.rulings u.id = {}
  | .setPassword userId hashedPassword, s, r, s' =>
      (∃ e, r = .error e ∧ s' = s) ∨
      ∃ u, s.store.users.find? userId = some u ∧
        s' = s.editRow userId (fun u => { u with password := hashedPassword }) (fun _ => rfl)
          (fun _ => rfl) ∧
        (r = .ok { u with password := hashedPassword } ∨ ∃ e, r = .error e)
  | .users (.findUser userId), s, r, s' =>
      s' = s ∧ ((∃ quota, r = .ok ((s.account shared userId).map fun a => (a, quota))) ∨
        ∃ e, r = .error e)
  | .users (.updateUser userId role isActive), s, r, s' =>
      (∃ e, r = .error e ∧ s' = s) ∨
      ∃ a, s.account shared userId = some a ∧ s' = s.rule shared a role isActive ∧
        (r = .ok { a with role := role.getD a.role, isActive := isActive.getD a.isActive } ∨
          ∃ e, r = .error e)
  | .users (.upsertUser a), s, r, s' =>
      (∃ e, r = .error e ∧ s' = s) ∨ (Synced shared s a s' ∧ (r = .ok a ∨ ∃ e, r = .error e))
  | .users _, s, _, s' => s' = s

/-- What may start: every request to the auth service, a change of password, an admin's update,
and the work on a push that has arrived. -/
inductive MemberStarts (env : AuthEnv) (json : PlanCatalogJson) :
    Members → MemberProcess Unit → Members → Prop
  | auth {s : Members} (q : AuthRequest × RequestInfo) :
      MemberStarts env json s (serving (ofAuth (AuthRequest.handle env q))) s
  | changePassword {s : Members} (userId oldPassword newPassword : String) :
      MemberStarts env json s (serving (changePassword env userId oldPassword newPassword)) s
  | adminUpdateUser {s : Members} (id : String) (role : Option Role) (isActive : Option Bool)
      (actorRole : Option Role) (actorUserId : Option String) :
      MemberStarts env json s
        (serving (ofUsers (adminUpdateUser json id role isActive actorRole actorUserId))) s
  | syncFromAuth {s : Members} {u : AuthUser} (hu : u ∈ s.sent) :
      MemberStarts env json s
        (serving (ofUsers (syncFromAuth json u.id (some u.role) (some u.isActive))))
        { s with sent := s.sent.erase u }

/-- Time passes, entries of Redis get lost, a push gets lost. -/
inductive MemberShifts : Members → Members → Prop
  | passes {s : Members} {store : AuthStore} (hp : s.store.Passes store)
      (hu : store.users = s.store.users) : MemberShifts s { s with store }
  | lost {s : Members} (u : AuthUser) : MemberShifts s { s with sent := s.sent.erase u }

def bothServices (env : AuthEnv) (json : PlanCatalogJson) :
    Surroundings memberInterface Failure Unit Members where
  effect := memberEffect shared
  start := MemberStarts env json
  change := MemberShifts

abbrev MemberPool := Pool memberInterface Failure Unit Members

end State

section Pushes

variable (G : Account → Prop)

/-- What the auth service reads of accounts is in `G`. -/
def Carried : (c : AuthCall) → c.Answer → Prop
  | .findUserByEmail _, r => ∀ u, r = .ok (some u) → G (accountOf u)
  | .createUser _, r => ∀ u, r = .ok u → G (accountOf u)
  | .setGoogleId _ _, r => ∀ u, r = .ok u → G (accountOf u)
  | _, _ => True

/-- What the auth service pushes is in `G`. -/
def Pushed (c : AuthCall) : Prop := ∀ u, c = .syncUserProjection u → G (accountOf u)

/-- An operation of the auth service that pushes nothing but what it reads. -/
abbrev Carries {α : Type} (p : AuthProcess α) (Q : α → Prop) : Prop :=
  p.Within (Pushed G) (Carried G) Q

def Pushless (c : AuthCall) : Prop := ∀ u, c ≠ .syncUserProjection u

variable {G} {α β : Type}

theorem pushless_of_apart {c : AuthCall} (h : c.Apart) : Pushless c := by
  intro u hc
  subst hc
  exact h

theorem pushless_apart {p : AuthProcess α} (h : IsApart p) : p.Only Pushless :=
  h.mono fun _ hc => pushless_of_apart hc

theorem carries_pushless {p : AuthProcess α} (h : p.Only Pushless) : Carries G p fun _ => True :=
  h.within fun _ hc u hu => (hc u hu).elim

theorem carries_then {p : AuthProcess α} {f : α → AuthProcess β} {R : β → Prop} (hp : IsApart p)
    (hf : ∀ a, Carries G (f a) R) : Carries G (p >>= f) R :=
  within_bind (carries_pushless (pushless_apart hp)) fun a _ => hf a

theorem carries_call {c : AuthCall} {g : c.Answer → AuthProcess α} {f : α → AuthProcess β}
    {R : β → Prop} (hc : Pushless c) (h : ∀ r, Carried G c r → Carries G (g r >>= f) R) :
    Carries G ((.call c g : AuthProcess α) >>= f) R :=
  within_call (fun u hu => (hc u hu).elim) h

theorem carries_syncUserProjection {user : AuthUser} (h : G (accountOf user)) :
    Carries G (syncUserProjection user) fun _ => True := by
  apply within_tryCatch
  · refine ⟨?_, fun r _ => within_ofExcept fun _ _ => trivial⟩
    intro u hu
    cases hu
    exact h
  · intro e
    trivial

variable (env : AuthEnv) {req : RequestInfo}

private theorem pushless_generateTokens (user : AuthUser) :
    (generateTokens env user req).Only Pushless := by
  apply only_bind (pushless_apart apart_randomUUID)
  intro jti
  apply only_bind (pushless_apart apart_now)
  intro t
  refine ⟨by simp [Pushless], fun r => ?_⟩
  cases r <;> trivial

private theorem pushless_openSession (user : AuthUser) (rememberMe : Option Bool) :
    (openSession env user req rememberMe).Only Pushless := by
  apply only_bind (pushless_generateTokens env user)
  intro pair
  apply only_bind (pushless_apart (apart_storeLoginContext env _ _))
  intro _
  trivial

private theorem carries_session {user : AuthUser} (h : G (accountOf user)) :
    Carries G (do
      syncUserProjection user
      openSession env user req none) fun _ => True :=
  within_bind (carries_syncUserProjection h) fun _ _ =>
    carries_pushless (pushless_openSession env user none)

theorem carries_register (dto : RegisterDto) :
    Carries G (register env dto req) fun _ => True := by
  apply carries_then (apart_findUserByEmail _)
  intro found
  cases found with
  | some user => trivial
  | none =>
    apply carries_then (apart_bcryptHash _)
    intro hashedPassword
    apply carries_call (c := .createUser _) (by simp [Pushless])
    intro r hcarried
    cases r with
    | error e => trivial
    | ok user => exact carries_session env (hcarried user rfl)

private theorem carries_refuseLogin (email message : String) {Q : AuthUser → Prop} :
    Carries G (refuseLogin env email message) Q := by
  apply carries_then (apart_registerFailedLogin env email)
  intro _
  trivial

private theorem carries_authenticate (dto : LoginDto) :
    Carries G (authenticate env dto req) fun _ => True := by
  apply carries_then (apart_assertNotLocked env _)
  intro _
  apply carries_then (apart_assertCaptchaIfNeeded env _ _)
  intro _
  apply carries_call (c := .findUserByEmail _) (by simp [Pushless])
  intro r hcarried
  cases r with
  | error e => trivial
  | ok found =>
    cases found with
    | none => exact carries_refuseLogin env _ _
    | some user =>
      simp only [Process.ofExcept_ok, Process.ret_bind]
      split
      · exact carries_refuseLogin env _ _
      · split
        · exact carries_refuseLogin env _ _
        · apply carries_then (apart_clearFailedLogins env _)
          intro _
          apply within_bind (carries_syncUserProjection (hcarried user rfl))
          intro _ _
          apply carries_then (apart_evaluateLoginAnomaly env user.id req)
          intro detected
          split <;> trivial

theorem carries_login (dto : LoginDto) : Carries G (login env dto req) fun _ => True := by
  apply within_bind (carries_authenticate env dto)
  intro user _
  split
  · apply carries_then (apart_storeChallenge env _)
    intro challengeId
    trivial
  · split
    · split
      · trivial
      · apply carries_then apart_generateMfaCode
        intro code
        apply carries_then (apart_storeChallenge env _)
        intro challengeId
        trivial
    · exact carries_pushless (pushless_openSession env user none)

private theorem carries_googleSession {user : AuthUser} (profile : GoogleProfile)
    (h : G (accountOf user)) : Carries G (googleSession env user profile req) fun _ => True := by
  unfold googleSession
  split
  · trivial
  · split
    · exact carries_session env h
    · apply carries_call (c := .setGoogleId _ _) (by simp [Pushless])
      intro r hcarried
      cases r with
      | error e => trivial
      | ok u => exact carries_session env (hcarried u rfl)

theorem carries_google (profile : GoogleProfile) :
    Carries G (findOrCreateGoogleUser env profile req) fun _ => True := by
  unfold findOrCreateGoogleUser
  split
  · trivial
  · apply carries_call (c := .findUserByEmail _) (by simp [Pushless])
    intro r hcarried
    cases r with
    | error e => trivial
    | ok found =>
      cases found with
      | some user => exact carries_googleSession env profile (hcarried user rfl)
      | none =>
        simp only [Process.ofExcept_ok, Process.ret_bind]
        split
        · trivial
        · apply carries_then apart_randomUUID
          intro randomPassword
          apply carries_then (apart_bcryptHash _)
          intro hashedPassword
          apply carries_call (c := .createUser _) (by simp [Pushless])
          intro r hnew
          cases r with
          | error e => trivial
          | ok user => exact carries_googleSession env profile (hnew user rfl)

private theorem pushless_verifyAdminMfa (challengeId code : String) :
    (verifyAdminMfa env challengeId code req).Only Pushless := by
  apply only_bind (pushless_apart apart_ensureRedisConnected)
  intro _
  apply only_bind (pushless_apart (apart_redisGet _))
  intro raw
  split
  · split
    · exact only_bind (pushless_apart (apart_redisDel _)) fun _ => trivial
    · apply only_bind (pushless_apart (apart_findUserById _))
      intro found
      cases found with
      | none => trivial
      | some user =>
        simp only
        split
        · trivial
        · apply only_bind (pushless_apart (apart_checkCode env _ user code))
          intro isValidCode
          split
          · apply only_bind (pushless_apart (apart_redisDel _))
            intro _
            exact pushless_openSession env user _
          · exact pushless_apart (apart_rejectCode env challengeId)
  · trivial

private theorem pushless_reuseDetected (sub : String) : (reuseDetected sub).Only Pushless := by
  apply only_bind
  · exact only_request (by simp [Pushless])
  · intro _
    trivial

private theorem pushless_refreshTokens (token : Bearer) :
    (refreshTokens env token req).Only Pushless := by
  have hdelete : ∀ rowId : String, (deleteTokenRow rowId).Only Pushless :=
    fun _ => only_request (by simp [Pushless])
  apply only_bind (pushless_apart apart_now)
  intro t
  cases verify token t with
  | none => trivial
  | some decoded =>
    apply only_bind (pushless_apart apart_ensureRedisConnected)
    intro _
    apply only_bind (pushless_apart (apart_redisGet _))
    intro wasUsed
    split
    · exact pushless_reuseDetected _
    · apply only_bind (only_request (by simp [Pushless]))
      intro stored
      cases stored with
      | none => exact pushless_reuseDetected _
      | some found =>
        apply only_bind (pushless_apart apart_now)
        intro t'
        split
        · exact only_bind (hdelete _) fun _ => trivial
        · apply only_bind (hdelete _)
          intro _
          apply only_bind (pushless_apart apart_now)
          intro t''
          apply only_bind (only_request (by simp [Pushless]))
          intro _
          exact only_bind (pushless_generateTokens env _) fun _ => trivial

theorem carries_handle (q : AuthRequest × RequestInfo) :
    Carries G (AuthRequest.handle env q) fun _ => True := by
  obtain ⟨q, req⟩ := q
  cases q with
  | register dto => exact carries_register env dto
  | login dto => exact carries_login env dto
  | google profile => exact carries_google env profile
  | verifyAdminMfa challengeId code =>
    exact carries_pushless (pushless_verifyAdminMfa env challengeId code)
  | refresh token => exact carries_pushless (pushless_refreshTokens env token)
  | logout token =>
    apply carries_pushless
    simp only [AuthRequest.handle, logout]
    split
    · trivial
    · apply only_bind
      · exact only_tryCatch (only_request (by simp [Pushless])) fun _ => trivial
      · intro _
        trivial
  | logoutAll userId =>
    apply carries_pushless
    exact only_bind (only_request (by simp [Pushless])) fun _ => trivial

end Pushes

end CloudVM.Split
