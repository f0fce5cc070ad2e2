import CloudVM.Auth.Server
import Mathlib.Data.Set.Basic

/-!
# Accounts and mailboxes

`register` looks an address up and stores it as it is written, `findOrCreateGoogleUser` in lower
case, and the keys of the lockout are made of the address in lower case. The unique index on the
column tells spellings apart. What requests of the service in any order can make of a mailbox
depends on the addresses they bring: one account, unless there are two spellings of one of them.
-/

namespace CloudVM

open AuthStore Process AuthService

namespace Mailbox

variable (env : AuthEnv)

/-- The service; no other program edits its users. -/
def signUpServer : Server authInterface Failure AuthReply (AuthRequest × RequestInfo) AuthStore where
  handler := AuthRequest.handle env
  effect := fun _ _ c s r s' => mayServe c s r s'
  change := fun s s' => s.Passes s' ∧ s'.users = s.users

def mailboxes (s : AuthStore) : List String := s.users.rows.map fun u => env.lower u.email

/-- No two accounts have addresses that are equal in lower case. -/
def OneAccountEach (s : AuthStore) : Prop := (mailboxes env s).Nodup

/-- The address under which a request may make an account. -/
def newAddress : AuthRequest → Option String
  | .register dto => some dto.email
  | .google profile => (profile.email.map fun e => env.lower (Text.jsTrim e)).filter fun e => e ≠ ""
  | _ => none

/-- The requests that come bring addresses from `offered` only. -/
def Offers (offered : Set String) : AuthLabel → Prop
  | .begin q => ∀ a ∈ newAddress env q.1, a ∈ offered
  | _ => True

def emails (s : AuthStore) : List String := s.users.rows.map AuthUser.email

/-- Addresses that are equal in lower case are equal. -/
def SpelledAlike (addresses : Set String) : Prop :=
  ∀ a ∈ addresses, ∀ b ∈ addresses, env.lower a = env.lower b → a = b

section Handlers

variable {env} {α : Type}

/-- The call makes no account, or one with the address. -/
def Creates (address : Option String) : AuthCall → Prop
  | .createUser d => address = some d.email
  | _ => True

variable {address : Option String}

private theorem creates_neutral {p : AuthProcess α} (h : IsNeutral p) : p.Only (Creates address) := by
  apply h.mono
  intro c hc
  cases c with
  | createUser d => exact hc.elim
  | _ => trivial

variable (env)

private theorem creates_generateTokens (user : AuthUser) (req : RequestInfo) :
    (generateTokens env user req).Only (Creates address) := by
  apply only_bind (creates_neutral apart_randomUUID.neutral)
  intro jti
  apply only_bind (creates_neutral apart_now.neutral)
  intro t
  exact only_bind (only_request trivial) fun _ => trivial

private theorem creates_openSession (user : AuthUser) (req : RequestInfo) (rememberMe : Option Bool) :
    (openSession env user req rememberMe).Only (Creates address) := by
  apply only_bind (creates_generateTokens env user req)
  intro pair
  exact only_bind (creates_neutral (apart_storeLoginContext env user.id req).neutral) fun _ => trivial

private theorem creates_register (dto : RegisterDto) (req : RequestInfo) :
    (register env dto req).Only (Creates (some dto.email)) := by
  apply only_bind (creates_neutral (apart_findUserByEmail _).neutral)
  intro found
  cases found with
  | some user => trivial
  | none =>
    apply only_bind (creates_neutral (apart_bcryptHash _).neutral)
    intro hashedPassword
    apply only_bind
    · apply only_request
      rfl
    · intro user
      apply only_bind (creates_neutral (neutral_syncUserProjection user))
      intro _
      exact creates_openSession env user req none

private theorem creates_login (dto : LoginDto) (req : RequestInfo) :
    (login env dto req).Only (Creates address) := by
  apply only_bind (creates_neutral (neutral_authenticate env dto req))
  intro user
  split
  · exact only_bind (creates_neutral (apart_storeChallenge env _).neutral) fun _ => trivial
  · split
    · split
      · trivial
      · apply only_bind (creates_neutral apart_generateMfaCode.neutral)
        intro code
        exact only_bind (creates_neutral (apart_storeChallenge env _).neutral) fun _ => trivial
    · exact creates_openSession env user req none

private theorem creates_googleSession (user : AuthUser) (profile : GoogleProfile) (req : RequestInfo) :
    (googleSession env user profile req).Only (Creates address) := by
  unfold googleSession
  split
  · trivial
  · have hsign : ∀ user : AuthUser, Process.Only (Creates address) (do
        syncUserProjection user
        openSession env user req none) := by
      intro user
      apply only_bind (creates_neutral (neutral_syncUserProjection user))
      intro _
      exact creates_openSession env user req none
    split
    · exact hsign user
    · exact only_bind (only_request trivial) hsign

private theorem creates_google (profile : GoogleProfile) (req : RequestInfo) :
    (findOrCreateGoogleUser env profile req).Only (Creates (newAddress env (.google profile))) := by
  unfold findOrCreateGoogleUser
  split
  · trivial
  · rename_i email hemail
    apply only_bind (creates_neutral (apart_findUserByEmail _).neutral)
    intro found
    cases found with
    | some user => exact creates_googleSession env user profile req
    | none =>
      simp only
      split
      · trivial
      · apply only_bind (creates_neutral apart_randomUUID.neutral)
        intro randomPassword
        apply only_bind (creates_neutral (apart_bcryptHash _).neutral)
        intro hashedPassword
        apply only_bind (only_request hemail)
        intro user
        exact creates_googleSession env user profile req

private theorem creates_verifyAdminMfa (challengeId code : String) (req : RequestInfo) :
    (verifyAdminMfa env challengeId code req).Only (Creates address) := by
  apply only_bind (creates_neutral apart_ensureRedisConnected.neutral)
  intro _
  apply only_bind (creates_neutral (apart_redisGet _).neutral)
  intro raw
  split
  · rename_i payload
    split
    · exact only_bind (creates_neutral (apart_redisDel _).neutral) fun _ => trivial
    · apply only_bind (creates_neutral (apart_findUserById _).neutral)
      intro found
      cases found with
      | none => trivial
      | some user =>
        simp only
        split
        · trivial
        · apply only_bind (creates_neutral (apart_checkCode env payload user code).neutral)
          intro isValidCode
          split
          · apply only_bind (creates_neutral (apart_redisDel _).neutral)
            intro _
            exact creates_openSession env user req _
          · exact creates_neutral (apart_rejectCode env challengeId).neutral
  · trivial

private theorem creates_refreshTokens (token : Bearer) (req : RequestInfo) :
    (refreshTokens env token req).Only (Creates address) := by
  have hreuse : ∀ sub, (reuseDetected sub).Only (Creates address) :=
    fun _ => only_bind (only_request trivial) fun _ => trivial
  apply only_bind (creates_neutral apart_now.neutral)
  intro t
  split
  · trivial
  · apply only_bind (creates_neutral apart_ensureRedisConnected.neutral)
    intro _
    apply only_bind (creates_neutral (apart_redisGet _).neutral)
    intro wasUsed
    split
    · exact hreuse _
    · apply only_bind (only_request trivial)
      intro stored
      cases stored with
      | none => exact hreuse _
      | some found =>
        apply only_bind (creates_neutral apart_now.neutral)
        intro t'
        split
        · exact only_bind (only_request trivial) fun _ => trivial
        · apply only_bind (only_request trivial)
          intro _
          apply only_bind (creates_neutral apart_now.neutral)
          intro t''
          apply only_bind (only_request trivial)
          intro _
          exact only_bind (creates_generateTokens env found.2 req) fun _ => trivial

/-- `register` makes an account under the address it was given, `findOrCreateGoogleUser` under the
one in lower case, and no other request makes one. -/
theorem handle_creates (q : AuthRequest × RequestInfo) :
    (AuthRequest.handle env q).Only (Creates (newAddress env q.1)) := by
  obtain ⟨request, req⟩ := q
  cases request with
  | register dto => exact creates_register env dto req
  | login dto => exact creates_login env dto req
  | google profile => exact creates_google env profile req
  | verifyAdminMfa challengeId code => exact creates_verifyAdminMfa env challengeId code req
  | refresh token => exact creates_refreshTokens env token req
  | logout token =>
    simp only [AuthRequest.handle, logout]
    split
    · trivial
    · apply only_bind
      · exact only_tryCatch (only_request trivial) fun _ => trivial
      · intro _
        trivial
  | logoutAll userId => exact only_bind (only_request trivial) fun _ => trivial

end Handlers

section Steps

variable {env} {s s' : AuthStore}

private theorem mailboxes_eq : mailboxes env s = (emails s).map env.lower := by
  simp only [mailboxes, emails, List.map_map]
  rfl

private theorem emails_modify {userId : String} {f : AuthUser → AuthUser}
    {hid : ∀ u, (f u).id = u.id} {hsecret : ∀ u, (f u).mfaSecret = u.mfaSecret}
    (hemail : ∀ u, (f u).email = u.email) :
    emails (s.modifyUser userId f hid hsecret) = emails s := by
  simp only [emails, modifyUser, Table.rows_modify, List.map_map]
  apply List.map_congr_left
  intro u _
  by_cases h : u.id = userId
  · simp [h, hemail]
  · simp [h]

/-- Only `user.create` changes the addresses, and only by a new row at the end, whose address no
other row has in this spelling. -/
theorem emails_of_serve {c : AuthCall} {r : c.Answer} (h : serve c s r s') :
    emails s' = emails s ∨
      ∃ d id, c = .createUser d ∧ s'.users.rows = s.users.rows ++ [d.toUser id] ∧
        ∀ u ∈ s.users.rows, u.email ≠ d.email := by
  have hsame : s'.users = s.users → emails s' = emails s := by
    intro hu
    rw [emails, hu, emails]
  cases c with
  | now | redisConnect | redisTtl | redisExpire | findUserByEmail | findUserById | redisSet |
    redisDel | findRefreshToken | deleteTokensOf | deleteTokenRow =>
    exact Or.inl (hsame (h.2 ▸ rfl))
  | generateMfaCode | bcryptHash | syncUserProjection | logMfaAudit =>
    exact Or.inl (hsame ((h : s' = s) ▸ rfl))
  | randomUUID => exact Or.inl (hsame (h.2.2 ▸ rfl))
  | redisGet key =>
    rcases h.2 with rfl | rfl <;> exact Or.inl (hsame rfl)
  | redisIncr key =>
    obtain ⟨n, -, -, rfl⟩ := h
    exact Or.inl (hsame rfl)
  | createRefreshToken token userId expiresAt =>
    rcases h with ⟨-, -, rfl⟩ | ⟨id, hid, htoken, howner, -, rfl⟩ <;> exact Or.inl (hsame rfl)
  | deleteToken token =>
    rcases h with ⟨-, -, rfl⟩ | ⟨-, -, rfl⟩ <;> exact Or.inl (hsame rfl)
  | setGoogleId userId googleId =>
    rcases h with ⟨-, -, rfl⟩ | ⟨u, -, -, -, rfl⟩
    · exact Or.inl (hsame rfl)
    · exact Or.inl (emails_modify fun _ => rfl)
  | setRecoveryHashes userId hashes =>
    rcases h with ⟨-, -, rfl⟩ | ⟨-, -, rfl⟩
    · exact Or.inl (hsame rfl)
    · exact Or.inl (emails_modify fun _ => rfl)
  | createUser d =>
    rcases h with ⟨-, -, rfl⟩ | ⟨hfree, id, hid, hvalid, -, rfl⟩
    · exact Or.inl (hsame rfl)
    · right
      refine ⟨d, id, rfl, rfl, ?_⟩
      intro u hu hemail
      exact hfree ⟨u, hu, Or.inl hemail⟩

theorem emails_of_mayServe {c : AuthCall} {r : c.Answer} (h : mayServe c s r s') :
    emails s' = emails s ∨
      ∃ d id, c = .createUser d ∧ s'.users.rows = s.users.rows ++ [d.toUser id] ∧
        ∀ u ∈ s.users.rows, u.email ≠ d.email := by
  rcases h with h | ⟨-, rfl | ⟨r', h⟩⟩
  · exact emails_of_serve h
  · exact Or.inl rfl
  · exact emails_of_serve h

private theorem oneAccountEach_insert (hs : OneAccountEach env s) {d : NewUser} {id : String}
    (hrows : s'.users.rows = s.users.rows ++ [d.toUser id]) :
    OneAccountEach env s' ↔ ∀ u ∈ s.users.rows, env.lower u.email ≠ env.lower d.email := by
  have hlist : mailboxes env s' = mailboxes env s ++ [env.lower d.email] := by
    rw [mailboxes, hrows, List.map_append]
    rfl
  rw [OneAccountEach, hlist, List.nodup_append]
  simp only [mailboxes, List.mem_map, List.nodup_cons, List.not_mem_nil, not_false_eq_true,
    List.nodup_nil, and_true, List.mem_singleton, forall_eq, forall_exists_index, and_imp,
    forall_apply_eq_imp_iff₂, true_and]
  exact and_iff_right hs

variable (env) in
/-- The requests under way make accounts under their own addresses, and with the accounts these are
among the offered ones. -/
structure Sound (offered : Set String) (x : AuthStage) : Prop where
  creates : ∀ task ∈ x.tasks, task.rest.Only (Creates (newAddress env task.request.1))
  offers : ∀ task ∈ x.tasks, ∀ a ∈ newAddress env task.request.1, a ∈ offered
  accounts : ∀ a ∈ emails x.state, a ∈ offered
  each : OneAccountEach env x.state

private theorem Sound.kept {offered : Set String} {x y : AuthStage} {l : AuthLabel}
    (hx : Sound env offered x) (hl : Offers env offered l)
    (h : (signUpServer env).Step x l y) :
    (∀ task ∈ y.tasks, task.rest.Only (Creates (newAddress env task.request.1))) ∧
      ∀ task ∈ y.tasks, ∀ a ∈ newAddress env task.request.1, a ∈ offered := by
  cases h with
  | begin q =>
    simp only [List.forall_mem_append, List.forall_mem_singleton]
    exact ⟨⟨hx.creates, handle_creates env q⟩, hx.offers, hl⟩
  | act ht he =>
    have hm := List.mem_of_getElem? ht
    constructor
    · intro task htask
      rcases mem_set_cases htask with rfl | ⟨j, -, hj⟩
      · exact (hx.creates _ hm).2 _
      · exact hx.creates task (List.mem_of_getElem? hj)
    · intro task htask
      rcases mem_set_cases htask with rfl | ⟨j, -, hj⟩
      · have hoffers := hx.offers _ hm
        exact hoffers
      · exact hx.offers task (List.mem_of_getElem? hj)
  | crash e ht hl' =>
    have hm := List.mem_of_getElem? ht
    constructor
    · intro task htask
      rcases mem_set_cases htask with rfl | ⟨j, -, hj⟩
      · trivial
      · exact hx.creates task (List.mem_of_getElem? hj)
    · intro task htask
      rcases mem_set_cases htask with rfl | ⟨j, -, hj⟩
      · have hoffers := hx.offers _ hm
        exact hoffers
      · exact hx.offers task (List.mem_of_getElem? hj)
  | change hc => exact ⟨hx.creates, hx.offers⟩

private theorem Sound.step {offered : Set String} (hspelled : SpelledAlike env offered)
    {x y : AuthStage} {l : AuthLabel} (hx : Sound env offered x) (hl : Offers env offered l)
    (h : (signUpServer env).Step x l y) : Sound env offered y := by
  obtain ⟨hcreates, hoffers⟩ := hx.kept hl h
  have hsame : y.state.users = x.state.users → Sound env offered y := by
    intro hu
    refine ⟨hcreates, hoffers, ?_, ?_⟩
    · rw [emails, hu]
      exact hx.accounts
    · rw [OneAccountEach, mailboxes, hu]
      exact hx.each
  cases h with
  | begin q => exact hsame rfl
  | crash e ht hl' => exact hsame rfl
  | change hc => exact hsame hc.2
  | @act s s' tasks i q log c k r ht he =>
    have hm := List.mem_of_getElem? ht
    rcases emails_of_mayServe he with hmail | ⟨d, id, rfl, hrows, hfree⟩
    · refine ⟨hcreates, hoffers, ?_, ?_⟩
      · rw [hmail]
        exact hx.accounts
      · have heach : OneAccountEach env s := hx.each
        show OneAccountEach env s'
        rw [OneAccountEach, mailboxes_eq] at heach ⊢
        rwa [hmail]
    · have haddress : newAddress env q.1 = some d.email := (hx.creates _ hm).1
      have hoffered : d.email ∈ offered := hx.offers _ hm _ (Option.mem_def.mpr haddress)
      refine ⟨hcreates, hoffers, ?_, ?_⟩
      · intro a ha
        rw [emails, hrows, List.map_append] at ha
        rcases List.mem_append.mp ha with ha | ha
        · exact hx.accounts a ha
        · obtain rfl := List.mem_singleton.mp ha
          exact hoffered
      · apply (oneAccountEach_insert hx.each hrows).mpr
        intro u hu hlower
        have hmem : u.email ∈ emails s := List.mem_map_of_mem hu
        exact hfree u hu (hspelled _ (hx.accounts _ hmem) _ hoffered hlower)

end Steps

section SignUp

variable {env} {s : AuthStore}

private def signUp (email : String) : AuthRequest × RequestInfo :=
  (.register ⟨email, "pw", "A", "B"⟩, ⟨"f", "1.2.3.4", "agent", none⟩)

private theorem signUp_calls (env : AuthEnv) (email : String) :
    ∃ k₁, AuthRequest.handle env (signUp email) = .call (.findUserByEmail email) k₁ ∧
      ∃ k₂, k₁ (.ok none) = .call (.bcryptHash "pw") k₂ ∧
        ∃ k₃, k₂ "hash" = .call (.createUser ⟨email, none, "hash", "A", "B"⟩) k₃ :=
  ⟨_, rfl, _, rfl, _, rfl⟩

private theorem signUp_run (tasks : List AuthTask) {offered : Set String} {email id : String}
    (hoffered : email ∈ offered)
    (hnew : email ∉ emails s) (hid : id ∉ s.users.rows.map AuthUser.id) (hne : id ≠ "") :
    Reaches (fun x l y => (signUpServer env).Step x l y ∧ Offers env offered l) ⟨s, tasks⟩ fun x =>
      x.state.users.rows =
        s.users.rows ++ [(⟨email, none, "hash", "A", "B"⟩ : NewUser).toUser id] := by
  obtain ⟨k₁, h₁, k₂, h₂, k₃, h₃⟩ := signUp_calls env email
  have hvalid : ((⟨email, none, "hash", "A", "B"⟩ : NewUser).toUser id).Valid :=
    ⟨hne, by simp [NewUser.toUser]⟩
  have hnone : s.findUser (fun u => u.email = email) = none := by
    simp only [findUser, List.find?_eq_none, decide_eq_true_eq]
    intro u hu hemail
    exact hnew (List.mem_map.mpr ⟨u, hu, hemail⟩)
  have hfree : ¬ s.Taken email none := by
    rintro ⟨u, hu, hemail | ⟨hsome, -⟩⟩
    · exact hnew (List.mem_map.mpr ⟨u, hu, hemail⟩)
    · exact hsome rfl
  have hoffers : Offers env offered (.begin (signUp email)) := by
    rintro a ⟨⟩
    exact hoffered
  apply Reaches.next ⟨.begin (signUp email), hoffers⟩
  apply Reaches.next ⟨Server.Step.act_last h₁ (Or.inl ⟨by rw [hnone], rfl⟩), trivial⟩
  apply Reaches.next ⟨Server.Step.act_last h₂ (Or.inl rfl), trivial⟩
  apply Reaches.next
    ⟨Server.Step.act_last h₃ (Or.inl (Or.inr ⟨hfree, id, hid, hvalid, rfl, rfl⟩)), trivial⟩
  exact Reaches.here rfl

private theorem exists_id (ids : List String) : ∃ id, id ∉ ids ∧ id ≠ "" := by
  obtain ⟨id, hid⟩ := Infinite.exists_notMem_finset ("" :: ids).toFinset
  simp only [List.mem_toFinset, List.mem_cons, not_or] at hid
  exact ⟨id, hid.2, hid.1⟩

private theorem account_run {offered : Set String} (x : AuthStage) {email : String}
    (hoffered : email ∈ offered) :
    Reaches (fun x l y => (signUpServer env).Step x l y ∧ Offers env offered l) x fun y =>
      emails x.state ⊆ emails y.state ∧ email ∈ emails y.state := by
  by_cases hold : email ∈ emails x.state
  · exact Reaches.here ⟨List.Subset.refl _, hold⟩
  · obtain ⟨id, hid, hne⟩ := exists_id (x.state.users.rows.map AuthUser.id)
    apply Reaches.imp (signUp_run x.tasks hoffered hold hid hne)
    intro y hy
    simp [emails, hy, NewUser.toUser]

end SignUp

section Runs

variable {env} {s : AuthStore}

private theorem eq_of_mailbox (hs : OneAccountEach env s) {a b : String} (ha : a ∈ emails s)
    (hb : b ∈ emails s) (h : env.lower a = env.lower b) : a = b := by
  obtain ⟨u, hu, rfl⟩ := List.mem_map.mp ha
  obtain ⟨v, hv, rfl⟩ := List.mem_map.mp hb
  rw [List.inj_on_of_nodup_map hs hu hv h]

/-- Accounts and mailboxes are one to one in all runs with the offered addresses exactly if no two
of these, nor one of these and one that has an account, are equal in lower case and differ. -/
theorem one_account_per_mailbox (hs : OneAccountEach env s) (offered : Set String) :
    (∀ trace y, Run (signUpServer env).Step ⟨s, []⟩ trace y →
      Along (fun _ l => Offers env offered l) ⟨s, []⟩ trace →
      ∀ e ∈ trace, OneAccountEach env e.2.state) ↔
    SpelledAlike env ({a | a ∈ emails s} ∪ offered) := by
  constructor
  · intro hall a ha b hb hlower
    have hreached : Reaches (fun x l y => (signUpServer env).Step x l y ∧ Offers env offered l)
        ⟨s, []⟩ fun y => a ∈ emails y.state ∧ b ∈ emails y.state := by
      have hfirst : ∀ {c} (x : AuthStage), emails s ⊆ emails x.state → c ∈ {a | a ∈ emails s} ∪ offered →
          Reaches (fun x l y => (signUpServer env).Step x l y ∧ Offers env offered l) x fun y =>
            emails x.state ⊆ emails y.state ∧ c ∈ emails y.state := by
        rintro c x hsub (hc | hc)
        · exact Reaches.here ⟨List.Subset.refl _, hsub hc⟩
        · exact account_run x hc
      apply (hfirst ⟨s, []⟩ (List.Subset.refl _) ha).trans
      rintro y ⟨hsub, hay⟩
      apply (hfirst y hsub hb).imp
      rintro z ⟨hsub', hbz⟩
      exact ⟨hsub' hay, hbz⟩
    obtain ⟨trace, y, hrun, halong, hay, hby⟩ := hreached.along
    have hy : OneAccountEach env y.state :=
      hrun.of_entries (J := fun x => OneAccountEach env x.state) hs (hall trace y hrun halong)
    exact eq_of_mailbox hy hay hby hlower
  · intro hspelled trace y hrun halong
    have hstart : Sound env ({a | a ∈ emails s} ∪ offered) ⟨s, []⟩ :=
      ⟨by simp, by simp, fun a ha => .inl ha, hs⟩
    have hsound := hrun.forall_along (P := fun _ l => Offers env ({a | a ∈ emails s} ∪ offered) l)
      (fun x l z hx hl h => hx.step hspelled hl h) hstart ?_
    · exact fun e he => (hsound e he).each
    · exact hrun.along_of (J := fun _ => True) (fun _ _ _ _ _ _ => trivial) (fun _ l _ hl => by
        cases l with
        | begin q => exact fun a ha => .inr (hl a ha)
        | _ => trivial) trivial halong

/-- Then an account is found again from any of the keys of its lockout. -/
theorem lockout_keys_injective (hs : OneAccountEach env s) {u v : AuthUser}
    (hu : u ∈ s.users.rows) (hv : v ∈ s.users.rows)
    (h : RedisKey.fail (env.lower u.email) = RedisKey.fail (env.lower v.email)) : u = v := by
  have hlower : env.lower u.email = env.lower v.email := by
    injection h
  exact List.inj_on_of_nodup_map hs hu hv hlower

section Spellings

/-- `toLowerCase` on ASCII. -/
def foldingEnv : AuthEnv :=
  { AuthEnv.sample with lower := fun text => String.ofList (text.toList.map Char.toLower) }

def noAccounts : AuthStore := .initial .empty (by simp) 100

private theorem noAccounts_each : OneAccountEach foldingEnv noAccounts := by
  simp [OneAccountEach, mailboxes, noAccounts, AuthStore.initial]

private theorem first_run {offered : Set String} (h : "A@b.c" ∈ offered) :
    Reaches (fun x l y => (signUpServer foldingEnv).Step x l y ∧ Offers foldingEnv offered l)
      ⟨noAccounts, []⟩ fun x =>
        x.state.users.rows = [(⟨"A@b.c", none, "hash", "A", "B"⟩ : NewUser).toUser "u"] :=
  signUp_run [] h (by simp [emails, noAccounts, AuthStore.initial])
    (by simp [noAccounts, AuthStore.initial]) (by decide)

/-- Two people register. -/
theorem one_account_per_mailbox_both : ∃ (trace : List (AuthLabel × AuthStage)) (y : AuthStage),
    Run (signUpServer foldingEnv).Step ⟨noAccounts, []⟩ trace y ∧
      emails y.state = ["A@b.c", "D@e.f"] ∧ ∀ e ∈ trace, OneAccountEach foldingEnv e.2.state := by
  let offered : Set String := {"A@b.c", "D@e.f"}
  have hspelled : SpelledAlike foldingEnv ({a | a ∈ emails noAccounts} ∪ offered) := by
    rintro a (ha | rfl | rfl) b (hb | rfl | rfl) hlower
    all_goals first
      | cases ha
      | cases hb
      | rfl
      | exact absurd hlower (by decide +kernel)
  have hboth : Reaches
      (fun x l y => (signUpServer foldingEnv).Step x l y ∧ Offers foldingEnv offered l)
      ⟨noAccounts, []⟩ fun x => emails x.state = ["A@b.c", "D@e.f"] := by
    apply (first_run (.inl rfl)).trans
    rintro ⟨s, tasks⟩ hs
    have hrows : s.users.rows = [(⟨"A@b.c", none, "hash", "A", "B"⟩ : NewUser).toUser "u"] := hs
    have hnew : "D@e.f" ∉ emails s := by simp [emails, hrows, NewUser.toUser]
    have hid : "v" ∉ s.users.rows.map AuthUser.id := by simp [hrows, NewUser.toUser]
    apply (signUp_run tasks (.inr rfl) hnew hid (by decide)).imp
    intro y hy
    rw [emails, hy, hrows]
    rfl
  obtain ⟨trace, y, hrun, halong, hy⟩ := hboth.along
  exact ⟨trace, y, hrun, hy,
    (one_account_per_mailbox noAccounts_each offered).mpr hspelled trace y hrun halong⟩

/-- One address in two spellings has two accounts and one lock. -/
theorem two_accounts_for_one_mailbox : ∃ (trace : List (AuthLabel × AuthStage)) (y : AuthStage),
    Run (signUpServer foldingEnv).Step ⟨noAccounts, []⟩ trace y ∧
      ¬ OneAccountEach foldingEnv y.state := by
  have hrun : Reaches (fun x l y => (signUpServer foldingEnv).Step x l y ∧
      Offers foldingEnv Set.univ l) ⟨noAccounts, []⟩ fun x =>
      x.state.users.rows = [(⟨"A@b.c", none, "hash", "A", "B"⟩ : NewUser).toUser "u",
        (⟨"a@b.c", none, "hash", "A", "B"⟩ : NewUser).toUser "v"] := by
    apply (first_run (Set.mem_univ _)).trans
    rintro ⟨s, tasks⟩ hs
    have hrows : s.users.rows = [(⟨"A@b.c", none, "hash", "A", "B"⟩ : NewUser).toUser "u"] := hs
    have hnew : "a@b.c" ∉ emails s := by simp [emails, hrows, NewUser.toUser]
    have hid : "v" ∉ s.users.rows.map AuthUser.id := by simp [hrows, NewUser.toUser]
    rw [← List.singleton_append, ← hrows]
    exact signUp_run tasks (Set.mem_univ _) hnew hid (by decide)
  obtain ⟨trace, y, hrun, -, hy⟩ := hrun.along
  refine ⟨trace, y, hrun, ?_⟩
  rw [OneAccountEach, mailboxes, hy]
  decide

end Spellings

end Runs

end Mailbox

end CloudVM
