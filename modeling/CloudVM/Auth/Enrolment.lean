import CloudVM.Access.Cookies
import CloudVM.Auth.DevOtp
import CloudVM.Auth.Recovery
import CloudVM.Framework.Records

/-!
# Enrolment

`setupAdminTotp` issues a secret and keeps it aside, `enableAdminTotp` makes it the second factor of
the account. Any number of these requests, and of those that switch the second factor off or use a
recovery code, overlap for any users.
-/

namespace CloudVM.Enrolment

open Process AuthService Recovery

structure EnrolEnv extends RecoveryEnv where
  mfaSetupTtlSeconds : Nat := 600
  mfaIssuer : String := "CloudVM"

inductive EnrolCall where
  | recovery (c : RecoveryCall)
  | generateTotpSecret
  | setSetup (userId : String) (payload : MfaPendingSetupPayload) (ttl : Nat)

@[reducible] def EnrolCall.Answer : EnrolCall → Type
  | .recovery c => c.Answer
  | .generateTotpSecret => String
  | .setSetup _ _ _ => Except Failure Unit

@[reducible] def enrolInterface : Interface where
  Call := EnrolCall
  Answer := EnrolCall.Answer

abbrev EnrolProcess (α : Type) := Process enrolInterface Failure α

abbrev EnrolLog := List (Event enrolInterface)

structure IssuedSetup where
  mfaEnabled : Bool
  setupExpiresInSeconds : Nat
  secret : String
  otpAuthUrl : String
  issuer : String
  accountName : String
deriving DecidableEq, Repr

inductive EnrolReply where
  | recovery (reply : RecoveryReply)
  | issued (setup : IssuedSetup)
deriving DecidableEq, Repr

inductive EnrolRequest where
  | recover (userId : String) (q : RecoveryRequest)
  | setup (userId currentPassword : String) (req : RequestInfo)
deriving DecidableEq, Repr

section Requests

variable (env : EnrolEnv)

def ofRecovery {α : Type} (p : RecoveryProcess α) : EnrolProcess α :=
  p.lift EnrolCall.recovery fun _ r => r

def buildOtpAuthUrl (secret label issuer : String) : String :=
  "otpauth://totp/" ++ Access.encodeURIComponent label ++ "?secret=" ++ secret ++ "&issuer=" ++
    Access.encodeURIComponent issuer ++ "&algorithm=SHA1&digits=6&period=30"

def setupAdminTotp (userId : String) (req : RequestInfo) : EnrolProcess IssuedSetup := do
  match ← ofRecovery (ofAuth (findUserById userId)) with
  | none => throw ⟨.unauthorized, "Only authenticated users can configure MFA"⟩
  | some user =>
    ofRecovery (ofAuth ensureRedisConnected)
    let secret ← .call .generateTotpSecret .ret
    let setupPayload : MfaPendingSetupPayload :=
      { userId := user.id, email := user.email, secret := secret, fingerprint := req.fingerprint }
    .call (.setSetup user.id setupPayload env.mfaSetupTtlSeconds) .ofExcept
    pure
      { mfaEnabled := user.mfaEnabled
        setupExpiresInSeconds := env.mfaSetupTtlSeconds
        secret := secret
        otpAuthUrl := buildOtpAuthUrl secret (env.mfaIssuer ++ ":" ++ user.email) env.mfaIssuer
        issuer := env.mfaIssuer
        accountName := user.email }

def setupAdminTotpWithPassword (userId currentPassword : String) (req : RequestInfo) :
    EnrolProcess EnrolReply := do
  let _ ← ofRecovery (assertCurrentPassword env.toRecoveryEnv userId currentPassword)
  let result ← setupAdminTotp env userId req
  ofRecovery (ofAuth (logMfaAudit userId "setup_issued"))
  pure (.issued result)

def EnrolRequest.handle : EnrolRequest → EnrolProcess EnrolReply
  | .recover userId q => do
      let reply ← ofRecovery (q.handle env.toRecoveryEnv userId)
      pure (.recovery reply)
  | .setup userId currentPassword req => setupAdminTotpWithPassword env userId currentPassword req

end Requests

section Store

theorem apply_id (data : MfaUpdate) (u : AuthUser) : (data.apply u).id = u.id := rfl

/-- The accounts and the setups that wait for their first code. -/
structure EnrolStore where
  users : Table AuthUser.id
  setups : String → Option (Option MfaPendingSetupPayload)

namespace EnrolStore

variable (s : EnrolStore)

def updateUser (userId : String) (f : AuthUser → AuthUser) (hf : ∀ u, (f u).id = u.id) : EnrolStore :=
  { s with users := s.users.modify (fun u => u.id = userId) f hf }

def putSetup (userId : String) (setup : Option MfaPendingSetupPayload) : EnrolStore :=
  { s with setups := fun u => if u = userId then setup.map some else s.setups u }

/-- A write succeeds, or fails and may have been done. -/
def Wrote (t : EnrolStore) (r : Except Failure Unit) (s' : EnrolStore) : Prop :=
  (r = .ok () ∧ s' = t) ∨ ((∃ e, r = .error e) ∧ (s' = s ∨ s' = t))

def Updated (userId : String) (t : EnrolStore) (r : Except Failure Unit) (s' : EnrolStore) : Prop :=
  (s.users.find? userId = none ∧ (∃ e, r = .error e) ∧ s' = s) ∨
  (s.users.find? userId ≠ none ∧ s.Wrote t r s')

end EnrolStore

def enrolEffect : (c : EnrolCall) → EnrolStore → c.Answer → EnrolStore → Prop
  | .recovery (.auth (.findUserById userId)), s, r, s' =>
      s' = s ∧ (r = .ok (s.users.find? userId) ∨ ∃ e, r = .error e)
  | .recovery (.auth (.setRecoveryHashes userId hashes)), s, r, s' =>
      s.Updated userId (s.updateUser userId (fun u => { u with mfaRecoveryCodeHashes := hashes })
        (AuthUser.id_with_hashes hashes)) r s'
  | .recovery (.updateMfa userId data), s, r, s' =>
      s.Updated userId (s.updateUser userId data.apply (apply_id data)) r s'
  | .recovery (.getSetup userId), s, r, s' => s' = s ∧ (r = .ok (s.setups userId) ∨ ∃ e, r = .error e)
  | .recovery (.delSetup userId), s, r, s' => s.Wrote (s.putSetup userId none) r s'
  | .setSetup userId payload _, s, r, s' => s.Wrote (s.putSetup userId (some payload)) r s'
  | _, s, _, s' => s' = s

/-- Meanwhile setups expire, and accounts come, go and are edited in their other columns. -/
structure Elsewhere (s s' : EnrolStore) : Prop where
  setups : ∀ userId, s'.setups userId = s.setups userId ∨ s'.setups userId = none
  users : ∀ user ∈ s'.users.rows, (user.mfaEnabled = false ∧ user.mfaSecret = none) ∨
    ∃ old ∈ s.users.rows, old.id = user.id ∧ old.mfaEnabled = user.mfaEnabled ∧
      old.mfaSecret = user.mfaSecret

def enrolServer (env : EnrolEnv) :
    Server enrolInterface Failure EnrolReply EnrolRequest EnrolStore where
  handler := EnrolRequest.handle env
  effect := fun _ _ => enrolEffect
  change := Elsewhere

abbrev EnrolStage := Stage enrolInterface Failure EnrolReply EnrolRequest EnrolStore

end Store

section Evidence

variable (env : EnrolEnv)

abbrev Saw (log : EnrolLog) (c : EnrolCall) (r : c.Answer) : Prop := (⟨c, r⟩ : Event enrolInterface) ∈ log

/-- The request issued the setup to a user whose password it was given. -/
def Issued (userId : String) (p : MfaPendingSetupPayload) (q : EnrolRequest) (log : EnrolLog) : Prop :=
  ∃ password req user, q = .setup userId password req ∧ p.userId = userId ∧
    p.fingerprint = req.fingerprint ∧ Saw log .generateTotpSecret p.secret ∧
    Saw log (.recovery (.auth (.findUserById userId))) (.ok (some user)) ∧ user.isActive = true ∧
    env.bcryptCompare password user.password = true

/-- The request read the setup and was given a code that fits its secret. -/
def Confirmed (userId : String) (p : MfaPendingSetupPayload) (q : EnrolRequest) (log : EnrolLog) :
    Prop :=
  ∃ code req t, q = .recover userId (.enable code req) ∧ p.userId = userId ∧
    p.fingerprint = req.fingerprint ∧ Saw log (.recovery (.getSetup userId)) (.ok (some (some p))) ∧
    Saw log (.recovery (.auth .now)) t ∧ env.verifyTotpCode p.secret code t = true

variable {env}

theorem lasting_issued (userId : String) (p : MfaPendingSetupPayload) :
    Lasting (Issued env userId p) := by
  rintro q log log' hsub ⟨password, req, user, hq, hp, hf, hs, hu, ha, hw⟩
  exact ⟨password, req, user, hq, hp, hf, hsub hs, hsub hu, ha, hw⟩

theorem lasting_confirmed (userId : String) (p : MfaPendingSetupPayload) :
    Lasting (Confirmed env userId p) := by
  rintro q log log' hsub ⟨code, req, t, hq, hp, hf, hg, ht, hv⟩
  exact ⟨code, req, t, hq, hp, hf, hsub hg, hsub ht, hv⟩

end Evidence

section Contract

variable (env : EnrolEnv) (q : EnrolRequest)

/-- The switch and the secret are written together. -/
def Whole (data : MfaUpdate) : Prop :=
  (data.mfaEnabled = none ∧ data.mfaSecret = none) ∨
  (data.mfaEnabled = some false ∧ data.mfaSecret = some none) ∨
  (data.mfaEnabled = some true ∧ ∃ secret, data.mfaSecret = some (some secret))

def Fits : (c : EnrolCall) → c.Answer → Prop
  | .recovery (.auth (.findUserById userId)), r => ∀ user, r = .ok (some user) → user.id = userId
  | _, _ => True

/-- A secret is written once it is confirmed, and a setup kept once it is issued. -/
def Permitted (log : EnrolLog) : EnrolCall → Prop
  | .recovery (.updateMfa userId data) => Whole data ∧
      ∀ secret, data.mfaSecret = some (some secret) →
        ∃ p, p.secret = secret ∧ Confirmed env userId p q log
  | .setSetup userId payload _ => Issued env userId payload q log
  | _ => True

abbrev Safe {α : Type} (p : EnrolProcess α) (log : EnrolLog) : Prop :=
  p.Wp (Permitted env q) (logged Fits) (fun _ _ => True) log

def Quiet : RecoveryCall → Prop
  | .updateMfa _ data => Whole data ∧ ∀ secret, data.mfaSecret ≠ some (some secret)
  | _ => True

variable {env q} {log : EnrolLog}

theorem quiet_ofAuth {α : Type} (p : AuthProcess α) : (ofAuth p).Only Quiet := by
  apply only_lift
  induction p with
  | ret a => trivial
  | raise e => trivial
  | call c k ih => exact ⟨trivial, ih⟩

theorem quiet_assertCurrentPassword (env : RecoveryEnv) (userId password : String) :
    (assertCurrentPassword env userId password).Only Quiet := by
  apply only_bind (quiet_ofAuth _)
  rintro (_ | user)
  · trivial
  · change (if !user.isActive then _ else _ : RecoveryProcess AuthUser).Only _
    split
    · trivial
    split <;> trivial

theorem quiet_regenerate (env : RecoveryEnv) (userId password : String) :
    (regenerateRecoveryCodes env userId password).Only Quiet := by
  apply only_bind (quiet_assertCurrentPassword env userId password)
  intro user
  split
  · trivial
  · refine ⟨trivial, fun raws => ⟨trivial, fun hashes => ⟨⟨.inl ⟨rfl, rfl⟩, by simp⟩, ?_⟩⟩⟩
    rintro (e | u)
    · trivial
    · exact only_bind (p := ofAuth (logMfaAudit userId _)) (quiet_ofAuth _) fun _ => trivial

theorem quiet_disable (env : RecoveryEnv) (userId password : String) :
    (disableAdminTotp env userId password).Only Quiet := by
  apply only_bind (quiet_assertCurrentPassword env userId password)
  intro user
  refine ⟨⟨.inr (.inl ⟨rfl, rfl⟩), by simp⟩, ?_⟩
  rintro (e | u)
  · trivial
  apply only_bind (quiet_ofAuth _)
  intro u
  apply only_bind (only_request trivial)
  intro u
  exact only_bind (quiet_ofAuth _) fun _ => trivial

theorem quiet_wp {α : Type} {p : RecoveryProcess α} (h : p.Only Quiet) :
    (ofRecovery p).Wp (Permitted env q) (logged Fits) (fun _ log' => log ⊆ log') log := by
  have honly : (ofRecovery p).Only fun c => ∀ log, Permitted env q log c := by
    apply only_lift
    apply h.mono
    intro c hc log
    cases c with
    | updateMfa userId data => exact ⟨hc.1, fun secret hs => (hc.2 secret hs).elim⟩
    | _ => trivial
  have hkeeps : (ofRecovery p).Keeps (Permitted env q) (logged Fits) fun log' => log ⊆ log' := by
    apply honly.keeps
    · exact fun log' c hc => hc log'
    · rintro c log₁ r log₂ - hsub ⟨-, rfl⟩
      exact fun e he => List.mem_append_left _ (hsub he)
  exact hkeeps log fun _ he => he

theorem assertCurrentPassword_wp (userId password : String) :
    (ofRecovery (assertCurrentPassword env.toRecoveryEnv userId password)).Wp (Permitted env q)
      (logged Fits)
      (Post (fun user log' => Saw log' (.recovery (.auth (.findUserById userId))) (.ok (some user)) ∧
        user.isActive = true ∧ env.bcryptCompare password user.password = true) fun _ _ => True)
      log := by
  refine ⟨trivial, ?_⟩
  rintro (e | (_ | user)) log' ⟨-, rfl⟩
  · trivial
  · trivial
  cases hactive : user.isActive with
  | false =>
    change (ofRecovery (if !user.isActive then _ else _ : RecoveryProcess AuthUser)).Wp _ _ _ _
    rw [hactive]
    trivial
  | true =>
    change (ofRecovery (if !user.isActive then _ else _ : RecoveryProcess AuthUser)).Wp _ _ _ _
    rw [hactive]
    cases hpassword : env.bcryptCompare password user.password with
    | false => simp [ofRecovery, lift]
    | true => simp [hpassword, hactive, ofRecovery, lift]

theorem safe_setup (userId password : String) (req : RequestInfo) {q : EnrolRequest}
    (hq : q = .setup userId password req) (log : EnrolLog) :
    Safe env q (setupAdminTotpWithPassword env userId password req) log := by
  apply (assertCurrentPassword_wp userId password).bind
  · exact fun _ _ _ => trivial
  rintro checked log ⟨hsaw, hactive, hpassword⟩
  refine ⟨trivial, ?_⟩
  rintro (e | (_ | user)) log' ⟨hfits, rfl⟩
  · trivial
  · trivial
  refine ⟨trivial, ?_⟩
  rintro (e | u) log' ⟨-, rfl⟩
  · trivial
  refine ⟨trivial, ?_⟩
  rintro secret log' ⟨-, rfl⟩
  have hid : user.id = userId := hfits user rfl
  refine ⟨⟨password, req, checked, ?_, rfl, rfl, ?_, ?_, hactive, hpassword⟩, ?_⟩
  · rw [hid]
    exact hq
  · simp
  · rw [hid]
    simp [hsaw]
  rintro (e | u) log' ⟨-, rfl⟩
  · trivial
  · exact (quiet_wp (quiet_ofAuth (logMfaAudit userId _))).bind (fun _ _ _ => trivial)
      fun _ _ _ => trivial

theorem safe_storeSetup {userId : String} {setup : MfaPendingSetupPayload}
    (h : Confirmed env userId setup q log) :
    Safe env q (ofRecovery (storeSetup env.toRecoveryEnv userId setup)) log := by
  refine ⟨trivial, ?_⟩
  rintro (e | (_ | user)) log' ⟨-, rfl⟩
  · trivial
  · trivial
  refine ⟨trivial, ?_⟩
  rintro raws log' ⟨-, rfl⟩
  refine ⟨trivial, ?_⟩
  rintro hashes log' ⟨-, rfl⟩
  refine ⟨⟨.inr (.inr ⟨rfl, _, rfl⟩), ?_⟩, ?_⟩
  · intro secret hsecret
    obtain rfl : setup.secret = secret := by simpa using hsecret
    refine ⟨setup, rfl, lasting_confirmed _ _ _ _ _ ?_ h⟩
    intro e he
    simp [he]
  rintro (e | u) log' ⟨-, rfl⟩
  · trivial
  refine ⟨trivial, ?_⟩
  rintro (e | u) log' ⟨-, rfl⟩
  · trivial
  · have hquiet : ∀ codes, (ofAuth (logMfaAudit userId "setup_enabled") >>= fun _ =>
        (pure (.enabled codes) : RecoveryProcess RecoveryReply)).Only Quiet :=
      fun codes => only_bind (quiet_ofAuth _) fun _ => trivial
    exact (quiet_wp (hquiet _)).mono fun _ _ _ => trivial

theorem safe_enable (userId code : String) (req : RequestInfo) {q : EnrolRequest}
    (hq : q = .recover userId (.enable code req)) (log : EnrolLog) :
    Safe env q (ofRecovery (enableAdminTotp env.toRecoveryEnv userId code req)) log := by
  have hdrop : ∀ failure log, Safe env q (ofRecovery (delSetup userId >>= fun _ =>
      (throw failure : RecoveryProcess RecoveryReply))) log := by
    intro failure log
    refine ⟨trivial, ?_⟩
    rintro (e | u) log' _ <;> trivial
  refine ⟨trivial, ?_⟩
  rintro (e | u) log' ⟨-, rfl⟩
  · trivial
  refine ⟨trivial, ?_⟩
  rintro (e | (_ | (_ | setup))) log' ⟨-, rfl⟩
  · trivial
  · trivial
  · exact hdrop _ _
  change (ofRecovery (if setup.userId ≠ userId then _ else _ : RecoveryProcess RecoveryReply)).Wp _ _ _ _
  split
  · trivial
  rename_i hown
  split
  · exact hdrop _ _
  rename_i hfingerprint
  refine ⟨trivial, ?_⟩
  rintro t log' ⟨-, rfl⟩
  change (ofRecovery (if !env.verifyTotpCode setup.secret code t then _ else _ :
    RecoveryProcess RecoveryReply)).Wp _ _ _ _
  split
  · trivial
  rename_i hcode
  apply safe_storeSetup
  refine ⟨code, req, t, hq, not_not.mp hown, not_not.mp hfingerprint, ?_, ?_, ?_⟩
  · simp
  · simp
  · simpa using hcode

def enrolContract (env : EnrolEnv) : (enrolServer env).Contract where
  fits := Fits
  permits := Permitted env
  returns := fun _ _ _ => True
  sound := by
    intro q log c s r s' he
    unfold Fits
    split
    · rename_i userId r
      rintro user rfl
      rcases he.2 with h | ⟨e, h⟩
      · exact ((Table.find?_eq_some _).mp (Except.ok.inj h).symm).2
      · cases h
    · trivial
  holds := by
    intro q
    have hsafe : Safe env q (q.handle env) [] := by
      cases q with
      | setup userId password req => exact safe_setup userId password req rfl []
      | recover userId q =>
        refine (wp_bind _ _ _ _).mpr ?_
        have hpost : ∀ {p : RecoveryProcess RecoveryReply}, Safe env (.recover userId q)
            (ofRecovery p) [] → (ofRecovery p).Wp (Permitted env (.recover userId q)) (logged Fits)
              (Post (fun reply t => Safe env (.recover userId q)
                (pure (.recovery reply) : EnrolProcess EnrolReply) t) fun _ _ => True) [] := by
          intro p hp
          apply hp.mono
          rintro (e | reply) t - <;> trivial
        cases q with
        | consume code =>
          have hquiet : (consumeCode env.toRecoveryEnv userId code).Only Quiet :=
            only_bind (quiet_ofAuth _) fun _ => trivial
          exact hpost ((quiet_wp hquiet).mono fun _ _ _ => trivial)
        | regenerate password =>
          exact hpost ((quiet_wp (quiet_regenerate _ userId password)).mono fun _ _ _ => trivial)
        | enable code req => exact hpost (safe_enable userId code req rfl [])
        | disable password =>
          exact hpost ((quiet_wp (quiet_disable _ userId password)).mono fun _ _ _ => trivial)
    apply hsafe.mono
    rintro (e | a) t - <;> trivial

end Contract

section Effects

variable {s s' : EnrolStore} {c : EnrolCall} {r : c.Answer}

theorem mem_updateUser {userId : String} {f : AuthUser → AuthUser} {hf : ∀ u, (f u).id = u.id}
    {user : AuthUser} (h : user ∈ (s.updateUser userId f hf).users.rows) :
    user ∈ s.users.rows ∨ ∃ old ∈ s.users.rows, old.id = userId ∧ user = f old := by
  rw [EnrolStore.updateUser, Table.rows_modify, List.mem_map] at h
  obtain ⟨old, hold, rfl⟩ := h
  by_cases hid : old.id = userId
  · rw [if_pos (by simpa using hid)]
    exact .inr ⟨old, hold, hid, rfl⟩
  · rw [if_neg (by simpa using hid)]
    exact .inl hold

theorem EnrolStore.Wrote.eq_or {t : EnrolStore} {r : Except Failure Unit} (h : s.Wrote t r s') :
    s' = s ∨ s' = t := by
  rcases h with ⟨-, rfl⟩ | ⟨-, rfl | rfl⟩ <;> simp

theorem EnrolStore.Updated.eq_or {userId : String} {t : EnrolStore} {r : Except Failure Unit}
    (h : s.Updated userId t r s') : s' = s ∨ s' = t := by
  rcases h with ⟨-, -, rfl⟩ | ⟨-, h⟩
  · exact .inl rfl
  · exact h.eq_or

theorem setups_of_effect (h : enrolEffect c s r s') {userId : String} {p : MfaPendingSetupPayload}
    (hp : s'.setups userId = some (some p)) :
    s.setups userId = some (some p) ∨ ∃ ttl, c = .setSetup userId p ttl := by
  unfold enrolEffect at h
  split at h
  · rw [← h.1]
    exact .inl hp
  · rcases h.eq_or with rfl | rfl <;> exact .inl hp
  · rcases h.eq_or with rfl | rfl <;> exact .inl hp
  · rw [← h.1]
    exact .inl hp
  · rcases h.eq_or with rfl | rfl
    · exact .inl hp
    · simp only [EnrolStore.putSetup, Option.map_none] at hp
      split at hp
      · cases hp
      · exact .inl hp
  · rcases h.eq_or with rfl | rfl
    · exact .inl hp
    · simp only [EnrolStore.putSetup, Option.map_some] at hp
      split at hp
      · rename_i huser
        rw [Option.some.injEq, Option.some.injEq] at hp
        exact .inr ⟨_, by rw [huser, hp]⟩
      · exact .inl hp
  · rw [← h]
    exact .inl hp

theorem users_of_effect (h : enrolEffect c s r s') {user : AuthUser} (hu : user ∈ s'.users.rows) :
    (∃ old ∈ s.users.rows, old.id = user.id ∧ old.mfaEnabled = user.mfaEnabled ∧
      old.mfaSecret = user.mfaSecret) ∨
    ∃ data, c = .recovery (.updateMfa user.id data) ∧ ∃ old ∈ s.users.rows, user = data.apply old := by
  have hsame : user ∈ s.users.rows → ∃ old ∈ s.users.rows, old.id = user.id ∧
      old.mfaEnabled = user.mfaEnabled ∧ old.mfaSecret = user.mfaSecret :=
    fun hmem => ⟨user, hmem, rfl, rfl, rfl⟩
  unfold enrolEffect at h
  split at h
  · obtain ⟨rfl, -⟩ := h
    exact .inl (hsame hu)
  · rcases h.eq_or with rfl | rfl
    · exact .inl (hsame hu)
    rcases mem_updateUser hu with hu | ⟨old, hold, -, rfl⟩
    · exact .inl (hsame hu)
    · exact .inl ⟨old, hold, rfl, rfl, rfl⟩
  · rcases h.eq_or with rfl | rfl
    · exact .inl (hsame hu)
    rcases mem_updateUser hu with hu | ⟨old, hold, rfl, rfl⟩
    · exact .inl (hsame hu)
    · exact .inr ⟨_, rfl, old, hold, rfl⟩
  · obtain ⟨rfl, -⟩ := h
    exact .inl (hsame hu)
  · rcases h.eq_or with rfl | rfl <;> exact .inl (hsame hu)
  · rcases h.eq_or with rfl | rfl <;> exact .inl (hsame hu)
  · obtain rfl := h
    exact .inl (hsame hu)

end Effects

section Traces

variable {env : EnrolEnv} {s : EnrolStore} {x y : EnrolStage}
  {l : StageLabel enrolInterface EnrolRequest}

/-- The second factor of an account is on with its secret, and the secret is one it had from the
start or one that was issued to its user and confirmed. -/
def Explained (env : EnrolEnv) (s : EnrolStore) (x : EnrolStage) (user : AuthUser) : Prop :=
  user.mfaEnabled = user.mfaSecret.isSome ∧
  ∀ secret, user.mfaSecret = some secret →
    (∃ old ∈ s.users.rows, old.id = user.id ∧ old.mfaSecret = some secret) ∨
    ∃ p, p.secret = secret ∧ x.Recorded (Issued env user.id p) ∧ x.Recorded (Confirmed env user.id p)

/-- Where setups and secrets come from. -/
structure Traced (env : EnrolEnv) (s : EnrolStore) (x : EnrolStage) : Prop where
  pending : ∀ userId p, x.state.setups userId = some (some p) → x.Recorded (Issued env userId p)
  seen : ∀ task ∈ x.tasks, ∀ userId p,
    Saw task.log (.recovery (.getSetup userId)) (.ok (some (some p))) →
      x.Recorded (Issued env userId p)
  held : ∀ user ∈ x.state.users.rows, Explained env s x user

theorem issued_step {userId : String} {p : MfaPendingSetupPayload}
    (hp : x.Recorded (Issued env userId p)) (h : (enrolServer env).Step x l y) :
    y.Recorded (Issued env userId p) :=
  hp.step (lasting_issued userId p) h

theorem seen_step (hx : Traced env s x) (h : (enrolServer env).Step x l y) :
    ∀ task ∈ y.tasks, ∀ userId p,
      Saw task.log (.recovery (.getSetup userId)) (.ok (some (some p))) →
        y.Recorded (Issued env userId p) := by
  intro task ht userId p hsaw
  rcases h.mem_log ht hsaw with ⟨old, hold, hsaw⟩ | ⟨q, log, -, hread⟩
  · exact issued_step (hx.seen old hold userId p hsaw) h
  · rcases hread with hread | ⟨e, hread⟩
    · exact issued_step (hx.pending userId p (Except.ok.inj hread).symm) h
    · cases hread

theorem explained_step {old user : AuthUser} (hx : Explained env s x old) (hid : old.id = user.id)
    (henabled : old.mfaEnabled = user.mfaEnabled) (hsecret : old.mfaSecret = user.mfaSecret)
    (h : (enrolServer env).Step x l y) : Explained env s y user := by
  refine ⟨?_, ?_⟩
  · rw [← henabled, ← hsecret]
    exact hx.1
  · intro secret hs
    rw [← hid]
    rcases hx.2 secret (hsecret.trans hs) with hold | ⟨p, hp, hissued, hconfirmed⟩
    · exact .inl hold
    · exact .inr ⟨p, hp, issued_step hissued h, hconfirmed.step (lasting_confirmed _ p) h⟩

theorem explained_none {user : AuthUser} (hoff : user.mfaEnabled = false)
    (hnone : user.mfaSecret = none) : Explained env s x user := by
  refine ⟨by rw [hoff, hnone]; rfl, ?_⟩
  intro secret hs
  cases hnone.symm.trans hs

theorem traced_act {i : ℕ} {c : EnrolCall} {r : c.Answer}
    (hk : ∀ task ∈ x.tasks, (enrolContract env).Kept task) (hx : Traced env s x)
    (h : (enrolServer env).Step x (.act i c r) y) : Traced env s y := by
  obtain ⟨q, log, k, hi⟩ := h.act_inv
  have hmem := List.mem_of_getElem? hi
  have hpermits : Permitted env q log c := (hk _ hmem).1
  obtain ⟨_, _, heffect⟩ := h.act_effect
  have heffect : enrolEffect c x.state r y.state := heffect
  refine ⟨?_, seen_step hx h, ?_⟩
  · intro userId p hp
    rcases setups_of_effect heffect hp with hp | ⟨ttl, rfl⟩
    · exact issued_step (hx.pending userId p hp) h
    · exact .of_task hmem (lasting_issued userId p) hpermits h
  · intro user hu
    rcases users_of_effect heffect hu with ⟨old, hold, hid, henabled, hsecret⟩ | ⟨data, rfl, old, hold, huser⟩
    · exact explained_step (hx.held old hold) hid henabled hsecret h
    obtain ⟨hwhole, hconfirmed⟩ := hpermits
    have hid : user.id = old.id := by
      rw [huser]
      rfl
    have henabled : user.mfaEnabled = data.mfaEnabled.getD old.mfaEnabled := by
      rw [huser]
      rfl
    have hsecret : user.mfaSecret = data.mfaSecret.getD old.mfaSecret := by
      rw [huser]
      rfl
    rcases hwhole with ⟨he, hs⟩ | ⟨he, hs⟩ | ⟨he, secret, hs⟩
    · rw [he] at henabled
      rw [hs] at hsecret
      exact explained_step (hx.held old hold) hid.symm henabled.symm hsecret.symm h
    · rw [he] at henabled
      rw [hs] at hsecret
      exact explained_none henabled hsecret
    · -- a confirmed setup was read, so it had been issued
      rw [he] at henabled
      rw [hs] at hsecret
      obtain ⟨p, rfl, hp⟩ := hconfirmed secret hs
      refine ⟨by rw [henabled, hsecret]; rfl, ?_⟩
      rintro other hother
      obtain rfl := Option.some.inj (hsecret.symm.trans hother)
      obtain ⟨_, _, _, -, -, -, hread, -, -⟩ := id hp
      exact .inr ⟨p, rfl, issued_step (hx.seen _ hmem _ p hread) h,
        .of_task hmem (lasting_confirmed _ p) hp h⟩

theorem traced_step (hk : ∀ task ∈ x.tasks, (enrolContract env).Kept task) (hx : Traced env s x)
    (h : (enrolServer env).Step x l y) : Traced env s y := by
  have hstep := h
  have hseen := seen_step hx h
  cases l with
  | act i c r => exact traced_act hk hx h
  | begin q =>
    cases h
    exact ⟨fun userId p hp => issued_step (hx.pending userId p hp) hstep, hseen,
      fun user hu => explained_step (hx.held user hu) rfl rfl rfl hstep⟩
  | crash =>
    cases h
    exact ⟨fun userId p hp => issued_step (hx.pending userId p hp) hstep, hseen,
      fun user hu => explained_step (hx.held user hu) rfl rfl rfl hstep⟩
  | change =>
    cases h with
    | change hc =>
      refine ⟨?_, hseen, ?_⟩
      · intro userId p hp
        rcases hc.setups userId with hsame | hnone
        · exact issued_step (hx.pending userId p (hsame ▸ hp)) hstep
        · cases hnone.symm.trans hp
      · intro user hu
        rcases hc.users user hu with ⟨hoff, hnone⟩ | ⟨old, hold, hid, henabled, hsecret⟩
        · exact explained_none hoff hnone
        · exact explained_step (hx.held old hold) hid henabled hsecret hstep

/-- However the requests overlap, the second factor of an account is on with its secret, and a
secret that is new was issued by a request with the password of the account, to the client that
later confirmed it with a fitting code. -/
theorem second_factors_are_confirmed (hnone : ∀ userId p, s.setups userId ≠ some (some p))
    (hwhole : ∀ user ∈ s.users.rows, user.mfaEnabled = user.mfaSecret.isSome)
    {trace : List (StageLabel enrolInterface EnrolRequest × EnrolStage)}
    (h : Run (enrolServer env).Step ⟨s, []⟩ trace x) :
    ∀ user ∈ x.state.users.rows, user.mfaEnabled = user.mfaSecret.isSome ∧
      ∀ secret, user.mfaSecret = some secret →
        (∃ old ∈ s.users.rows, old.id = user.id ∧ old.mfaSecret = some secret) ∨
        ∃ p, p.secret = secret ∧ x.Recorded (Issued env user.id p) ∧
          x.Recorded (Confirmed env user.id p) := by
  have hstart : Traced env s ⟨s, []⟩ := by
    refine ⟨fun userId p hp => (hnone userId p hp).elim, by simp, ?_⟩
    intro user hu
    exact ⟨hwhole user hu, fun secret hs => .inl ⟨user, hu, rfl, hs⟩⟩
  have htraced : Traced env s x := by
    clear hwhole
    induction h with
    | nil => exact hstart
    | snoc hr hs ih => exact traced_step ((enrolContract env).kept hr) ih hs
  exact htraced.held

end Traces

section Sample

private def sampleEnrolEnv : EnrolEnv := { toAuthEnv := .sample }

/-- Every call succeeds, and the secret is `S`. -/
private def enrolAnswer : (c : EnrolCall) → EnrolStore → c.Answer × EnrolStore
  | .recovery (.auth (.findUserById userId)), s => (.ok (s.users.find? userId), s)
  | .recovery (.auth (.setRecoveryHashes userId hashes)), s =>
      if s.users.find? userId = none then (.error ⟨.notFound, ""⟩, s)
      else (.ok (), s.updateUser userId (fun u => { u with mfaRecoveryCodeHashes := hashes })
        (AuthUser.id_with_hashes hashes))
  | .recovery (.updateMfa userId data), s =>
      if s.users.find? userId = none then (.error ⟨.notFound, ""⟩, s)
      else (.ok (), s.updateUser userId data.apply (apply_id data))
  | .recovery (.getSetup userId), s => (.ok (s.setups userId), s)
  | .recovery (.delSetup userId), s => (.ok (), s.putSetup userId none)
  | .setSetup userId payload _, s => (.ok (), s.putSetup userId (some payload))
  | .generateTotpSecret, s => ("S", s)
  | .recovery (.randomHex _), s => (["1a2b3c4d"], s)
  | .recovery (.hashAll texts), s => (texts, s)
  | .recovery (.auth c), s => (DevOtp.sampleAnswers [] c, s)

private theorem enrolAnswer_effect (c : EnrolCall) (s : EnrolStore) :
    enrolEffect c s (enrolAnswer c s).1 (enrolAnswer c s).2 := by
  unfold enrolAnswer
  split
  · exact ⟨rfl, .inl rfl⟩
  · split
    · rename_i h
      exact .inl ⟨h, ⟨_, rfl⟩, rfl⟩
    · rename_i h
      exact .inr ⟨h, .inl ⟨rfl, rfl⟩⟩
  · split
    · rename_i h
      exact .inl ⟨h, ⟨_, rfl⟩, rfl⟩
    · rename_i h
      exact .inr ⟨h, .inl ⟨rfl, rfl⟩⟩
  · exact ⟨rfl, .inl rfl⟩
  · exact .inl ⟨rfl, rfl⟩
  · exact .inl ⟨rfl, rfl⟩
  · rfl
  · rfl
  · rfl
  · rename_i c hfind hset
    cases c with
    | findUserById userId => exact (hfind userId rfl).elim
    | setRecoveryHashes userId hashes => exact (hset userId hashes rfl).elim
    | _ => rfl

private def sampleAccounts : EnrolStore where
  users := ⟨[DevOtp.sampleAdmin], List.nodup_singleton _⟩
  setups := fun _ => none

private def enrolMoves : List (Move EnrolRequest) :=
  .begin (.setup "admin" "secret" DevOtp.sampleRequest) :: List.replicate 6 (.act 0) ++
    .begin (.recover "admin" (.enable "287082" DevOtp.sampleRequest)) :: List.replicate 9 (.act 1)

theorem second_factors_are_confirmed_admin :
    ∃ trace x, Run (enrolServer sampleEnrolEnv).Step ⟨sampleAccounts, []⟩ trace x ∧
      ∃ user ∈ x.state.users.rows, user.mfaEnabled = true ∧ ∃ p, p.secret = "S" ∧
        x.Recorded (Issued sampleEnrolEnv user.id p) ∧
        x.Recorded (Confirmed sampleEnrolEnv user.id p) := by
  have hplay : (play (enrolServer sampleEnrolEnv) enrolAnswer ⟨sampleAccounts, []⟩ enrolMoves).map
      (fun x => x.state.users.rows.map fun user => (user.mfaEnabled, user.mfaSecret)) =
        some [(true, some "S")] := by decide +kernel
  obtain ⟨x, hx, hrows⟩ := Option.map_eq_some_iff.mp hplay
  obtain ⟨trace, hrun⟩ := run_of_play (fun _ _ => enrolAnswer_effect) hx
  obtain ⟨user, hrow, huser⟩ := List.map_eq_singleton_iff.mp hrows
  have hmem : user ∈ x.state.users.rows := by simp [hrow]
  have hwhole := second_factors_are_confirmed (s := sampleAccounts) (by simp [sampleAccounts])
    (by simp [sampleAccounts, DevOtp.sampleAdmin]) hrun user hmem
  obtain ⟨henabled, hsecret⟩ := Prod.mk.inj huser
  refine ⟨trace, x, hrun, user, hmem, henabled, ?_⟩
  rcases hwhole.2 "S" hsecret with ⟨old, hold, -, hs⟩ | h
  · simp [sampleAccounts] at hold
    subst hold
    cases hs
  · exact h

end Sample

end CloudVM.Enrolment
