import CloudVM.Auth.Neutral

/-!
# What an operation does to the refresh tokens

Each operation, run to its end while Postgres and Redis work, edits the table of refresh tokens
in one way: some tokens go, at most one comes. Everything else about the store is left open.
-/

namespace CloudVM

/-- The refresh tokens are as before; no marker was set. -/
structure Quiet (s s' : AuthStore) : Prop where
  tokens : s'.tokens = s.tokens
  drawn : s.drawn ⊆ s'.drawn
  marks : ∀ jti, s'.redis (.refreshUsed jti) ≠ none → s.redis (.refreshUsed jti) ≠ none

/-- The tokens in `gone` are away and `new` is there. A marker is set for a token that went. -/
structure Edit (s : AuthStore) (gone : RefreshPayload → Prop) (new : Option RefreshRow)
    (s' : AuthStore) : Prop where
  rows : ∀ row, row ∈ s'.tokens.rows ↔
    (row ∈ s.tokens.rows ∧ ¬ gone row.token) ∨ new = some row
  fresh : ∀ row, new = some row → row.userId = row.token.sub ∧ row.expiresAt = row.token.exp ∧
    row.token.jti ≠ "" ∧ row.token.sub ≠ "" ∧ row.token.jti ∉ s.drawn ∧ row.token.jti ∈ s'.drawn
  drawn : s.drawn ⊆ s'.drawn
  marks : ∀ jti, s'.redis (.refreshUsed jti) ≠ none → s.redis (.refreshUsed jti) ≠ none ∨
    ∃ row ∈ s.tokens.rows, row.token.jti = jti ∧ gone row.token

theorem Quiet.refl (s : AuthStore) : Quiet s s := ⟨rfl, fun _ h => h, fun _ h => h⟩

theorem Quiet.trans {s t u : AuthStore} (h : Quiet s t) (h' : Quiet t u) : Quiet s u :=
  ⟨h'.tokens.trans h.tokens, fun _ hj => h'.drawn (h.drawn hj),
    fun jti hj => h.marks jti (h'.marks jti hj)⟩

theorem Quiet.edit {s t : AuthStore} (h : Quiet s t) : Edit s (fun _ => False) none t where
  rows := by simp [h.tokens]
  fresh := by simp
  drawn := h.drawn
  marks := fun jti hj => .inl (h.marks jti hj)

section Compose

variable {s t u : AuthStore} {gone : RefreshPayload → Prop} {new : Option RefreshRow}

theorem Edit.of_quiet (h : Quiet s t) (h' : Edit t gone new u) : Edit s gone new u where
  rows := by
    intro row
    rw [h'.rows row, h.tokens]
  fresh := by
    intro row hr
    obtain ⟨hu, he, hj, hs, hn, hd⟩ := h'.fresh row hr
    exact ⟨hu, he, hj, hs, fun hm => hn (h.drawn hm), hd⟩
  drawn := fun _ hj => h'.drawn (h.drawn hj)
  marks := by
    intro jti hj
    rcases h'.marks jti hj with hj | ⟨row, hm, hr⟩
    · exact .inl (h.marks jti hj)
    · rw [h.tokens] at hm
      exact .inr ⟨row, hm, hr⟩

theorem Edit.quiet (h : Edit s gone new t) (h' : Quiet t u) : Edit s gone new u where
  rows := by
    intro row
    rw [h'.tokens]
    exact h.rows row
  fresh := by
    intro row hr
    obtain ⟨hu, he, hj, hs, hn, hd⟩ := h.fresh row hr
    exact ⟨hu, he, hj, hs, hn, h'.drawn hd⟩
  drawn := fun _ hj => h'.drawn (h.drawn hj)
  marks := fun jti hj => h.marks jti (h'.marks jti hj)

theorem Edit.mint {row : RefreshRow} (h : Edit s gone none t)
    (h' : Edit t (fun _ => False) (some row) u) : Edit s gone (some row) u where
  rows := by
    intro r
    rw [h'.rows r, h.rows r]
    simp
  fresh := by
    intro r hr
    obtain ⟨hu, he, hj, hs, hn, hd⟩ := h'.fresh r hr
    exact ⟨hu, he, hj, hs, fun hm => hn (h.drawn hm), hd⟩
  drawn := fun _ hj => h'.drawn (h.drawn hj)
  marks := by
    intro jti hj
    rcases h'.marks jti hj with hj | ⟨_, _, _, hf⟩
    · exact h.marks jti hj
    · exact hf.elim

theorem Edit.of_erase {p : RefreshRow → Bool}
    (hp : ∀ row ∈ s.tokens.rows, p row = true ↔ gone row.token) :
    Edit s gone none (s.eraseTokens p) where
  rows := by
    intro row
    have hrow : row ∈ (s.eraseTokens p).tokens.rows ↔ row ∈ s.tokens.rows ∧ p row = false :=
      Table.mem_erase _ _ _
    rw [hrow]
    constructor
    · intro h
      refine .inl ⟨h.1, fun hg => ?_⟩
      rw [(hp row h.1).mpr hg] at h
      exact Bool.noConfusion h.2
    · intro h
      rcases h with ⟨hm, hg⟩ | h
      · refine ⟨hm, ?_⟩
        rw [← Bool.not_eq_true, hp row hm]
        exact hg
      · cases h
  fresh := by simp
  drawn := fun _ hj => hj
  marks := fun _ hj => .inl hj

theorem Edit.of_insert {row : RefreshRow} (hne : row.token.jti ≠ "")
    (hfresh : row.token.jti ∉ s.drawn) (hu : row.userId = row.token.sub)
    (he : row.expiresAt = row.token.exp) (hid : row.id ∉ s.tokens.rows.map RefreshRow.id)
    (htoken : row.token ∉ s.tokens.rows.map RefreshRow.token)
    (howner : ∃ u ∈ s.users.rows, u.id = row.userId) :
    Edit s (fun _ => False) (some row) (AuthStore.insertToken
      { s with drawn := row.token.jti :: s.drawn } row hid htoken howner) where
  rows := by
    intro r
    simp only [AuthStore.insertToken, Table.rows_insert, List.mem_append, List.mem_singleton,
      not_false_eq_true, and_true, Option.some.injEq]
    exact or_congr_right eq_comm
  fresh := by
    intro r hr
    obtain rfl := Option.some.inj hr
    obtain ⟨u, hm, huid⟩ := howner
    have hvalid : u.id ≠ "" := (s.valid u hm).1
    rw [huid, hu] at hvalid
    exact ⟨hu, he, hne, hvalid, hfresh, List.mem_cons_self⟩
  drawn := fun _ hj => List.mem_cons_of_mem _ hj
  marks := fun _ hj => .inl hj

theorem Edit.mark {row : RefreshRow} (h : Edit s gone none t) (hm : row ∈ s.tokens.rows)
    (hg : gone row.token) :
    Edit s gone none (t.put (.refreshUsed row.token.jti) .one) where
  rows := h.rows
  fresh := by simp
  drawn := h.drawn
  marks := by
    intro jti hj
    by_cases he : jti = row.token.jti
    · exact .inr ⟨row, hm, he.symm, hg⟩
    · have hr : t.redis (.refreshUsed jti) ≠ none := by simpa [AuthStore.put, he] using hj
      exact h.marks jti hr

end Compose

open AuthStore

section Served

variable {s s' : AuthStore}

private theorem quiet_forget (s : AuthStore) (keys : List RedisKey) : Quiet s (s.forget keys) where
  tokens := rfl
  drawn := fun _ h => h
  marks := by
    intro jti h hs
    by_cases hk : RedisKey.refreshUsed jti ∈ keys <;> simp [forget, hk, hs] at h

private theorem quiet_put (s : AuthStore) {key : RedisKey} (hk : ∀ jti, key ≠ .refreshUsed jti)
    (v : RedisValue) : Quiet s (s.put key v) where
  tokens := rfl
  drawn := fun _ h => h
  marks := by
    intro jti h
    simpa [put, (hk jti).symm] using h

private theorem quiet_modifyUser (s : AuthStore) (userId : String) (f : AuthUser → AuthUser)
    (hid : ∀ u, (f u).id = u.id) (hsecret : ∀ u, (f u).mfaSecret = u.mfaSecret) :
    Quiet s (s.modifyUser userId f hid hsecret) := ⟨rfl, fun _ h => h, fun _ h => h⟩

theorem quiet_of_serve {c : AuthCall} {r : c.Answer} (hc : c.Neutral ∨ ∃ d, c = .createUser d)
    (h : serve c s r s') : Quiet s s' := by
  cases c with
  | createRefreshToken | findRefreshToken | deleteTokensOf | deleteTokenRow | deleteToken =>
    rcases hc with hc | ⟨d, hc⟩
    · exact hc.elim
    · cases hc
  | now | redisConnect | redisTtl | redisExpire | findUserByEmail | findUserById =>
    obtain ⟨-, rfl⟩ := h
    exact .refl _
  | generateMfaCode | bcryptHash | syncUserProjection | logMfaAudit =>
    obtain rfl := h
    exact .refl _
  | randomUUID =>
    obtain ⟨-, -, rfl⟩ := h
    exact ⟨rfl, fun _ hj => List.mem_cons_of_mem _ hj, fun _ hj => hj⟩
  | redisGet key =>
    rcases h.2 with rfl | rfl
    · exact .refl _
    · exact quiet_forget s _
  | redisSet key v ttl =>
    obtain ⟨-, rfl⟩ := h
    rcases hc with hc | ⟨d, hc⟩
    · exact quiet_put s hc v
    · cases hc
  | redisDel keys =>
    obtain ⟨-, rfl⟩ := h
    exact quiet_forget s keys
  | redisIncr key =>
    obtain ⟨n, -, -, rfl⟩ := h
    rcases hc with hc | ⟨d, hc⟩
    · exact quiet_put s hc _
    · cases hc
  | createUser d =>
    rcases h with ⟨-, -, rfl⟩ | ⟨-, id, hid, hu, -, rfl⟩
    · exact .refl _
    · exact ⟨rfl, fun _ hj => hj, fun _ hj => hj⟩
  | setGoogleId userId googleId =>
    rcases h with ⟨-, -, rfl⟩ | ⟨u, -, -, -, rfl⟩
    · exact .refl _
    · exact quiet_modifyUser s _ _ _ _
  | setRecoveryHashes userId hashes =>
    rcases h with ⟨-, -, rfl⟩ | ⟨-, -, rfl⟩
    · exact .refl _
    · exact quiet_modifyUser s _ _ _ _

end Served

namespace AuthService

open Process

variable (env : AuthEnv)

/-- A call without a condition. -/
abbrev AnyCall : AuthStore → AuthCall → Prop := fun _ _ => True

section Mint

theorem generateTokens_wp (user : AuthUser) (req : RequestInfo) (s : AuthStore) :
    (generateTokens env user req).Wp AnyCall serve
      (Post (fun pair s' => ∃ row, row.token = pair.refreshToken ∧
          Edit s (fun _ => False) (some row) s')
        fun _ s' => Quiet s s' ∧ ((∃ row ∈ s.tokens.rows, row.token.jti ∉ s.drawn) ∨
          ∀ u ∈ s.users.rows, u.id ≠ user.id)) s := by
  refine (wp_bind _ _ _ _).mpr ⟨trivial, fun jti s₁ hjti => ?_⟩
  obtain ⟨hne, hfresh, rfl⟩ := hjti
  refine (wp_bind _ _ _ _).mpr ⟨trivial, fun t s₂ ht => ?_⟩
  obtain ⟨rfl, rfl⟩ := ht
  refine (wp_bind _ _ _ _).mpr ⟨trivial, fun r s₃ hr => (wp_ofExcept _ _ _).mpr ?_⟩
  rcases hr with ⟨hbad, ⟨e, rfl⟩, rfl⟩ | ⟨id, hid, htoken, howner, rfl, rfl⟩
  · have hquiet : Quiet s { s with drawn := jti :: s.drawn } :=
      ⟨rfl, fun _ hj => List.mem_cons_of_mem _ hj, fun _ hj => hj⟩
    refine ⟨hquiet, ?_⟩
    rcases hbad with hin | hno
    · obtain ⟨row, hrow, hrt⟩ := List.mem_map.mp hin
      refine .inl ⟨row, hrow, ?_⟩
      rw [hrt]
      exact hfresh
    · exact .inr hno
  · exact ⟨_, by rfl, Edit.of_insert (s := s) hne hfresh rfl rfl hid htoken howner⟩

end Mint

section SignIn

/-- What a way to sign in may have done when it ends. -/
def SignedIn (s : AuthStore) : Except Failure AuthReply → AuthStore → Prop
  | .ok (.tokens pair _), s' =>
      ∃ row, row.token = pair.refreshToken ∧ Edit s (fun _ => False) (some row) s'
  | _, s' => Quiet s s'

/-- A process that signs in or leaves the tokens alone. -/
def SignsIn (p : AuthProcess AuthReply) : Prop :=
  ∀ s s', Quiet s s' → p.Wp AnyCall serve (SignedIn s) s'

theorem signedIn_of_quiet {s s' : AuthStore} {out : Except Failure AuthReply}
    (hout : ∀ pair rememberMe, out ≠ .ok (.tokens pair rememberMe)) (h : Quiet s s') :
    SignedIn s out s' := by
  unfold SignedIn
  split
  · exact (hout _ _ rfl).elim
  · exact h

theorem signsIn_throw (e : Failure) : SignsIn (throw e) :=
  fun _ _ h => signedIn_of_quiet (by simp) h

theorem signsIn_pure {reply : AuthReply} (h : ∀ pair rememberMe, reply ≠ .tokens pair rememberMe) :
    SignsIn (pure reply) := by
  intro s s' hq
  apply signedIn_of_quiet _ hq
  intro pair rememberMe he
  exact h pair rememberMe (Except.ok.inj he)

theorem neutral_keeps_quiet {α : Type} {p : AuthProcess α} (h : IsNeutral p) (s : AuthStore) :
    p.Keeps AnyCall serve (Quiet s) :=
  h.keeps (fun _ _ _ => trivial) fun _ _ _ _ hc hq he => hq.trans (quiet_of_serve (.inl hc) he)

theorem signsIn_bind {α : Type} {p : AuthProcess α} {f : α → AuthProcess AuthReply}
    (hp : IsNeutral p) (hf : ∀ a, SignsIn (f a)) : SignsIn (p >>= f) := by
  intro s s' hq
  apply (neutral_keeps_quiet hp s s' hq).bind
  · intro e t ht
    exact ht
  · intro a t ht
    exact hf a s t ht

private theorem storeLoginContext_ok (userId : String) (req : RequestInfo) (s : AuthStore) :
    (storeLoginContext env userId req).Wp AnyCall serve (fun out _ => ∃ a, out = .ok a) s := by
  refine (wp_bind _ _ _ _).mpr ⟨trivial, fun t s₁ _ => ?_⟩
  refine (wp_tryCatch _ _ _ _).mpr ((wp_true (fun _ _ => trivial) _ s₁).mono ?_)
  intro r s₂ _
  cases r with
  | error e => exact ⟨_, rfl⟩
  | ok a => exact ⟨a, rfl⟩

theorem signsIn_openSession (user : AuthUser) (req : RequestInfo) (rememberMe : Option Bool) :
    SignsIn (openSession env user req rememberMe) := by
  intro s s' hq
  refine (wp_bind _ _ _ _).mpr ((generateTokens_wp env user req s').mono ?_)
  intro r t ht
  cases r with
  | error e => exact hq.trans ht.1
  | ok pair =>
    obtain ⟨row, hrow, hedit⟩ := ht
    refine (wp_bind _ _ _ _).mpr ?_
    have hkeeps := neutral_keeps_quiet (apart_storeLoginContext env user.id req).neutral t t (.refl t)
    have hnoError := storeLoginContext_ok env user.id req t
    apply (Wp.and hkeeps hnoError).mono
    intro r' u h
    obtain ⟨hquiet, a, rfl⟩ := h
    exact ⟨row, hrow, Edit.of_quiet hq (hedit.quiet hquiet)⟩

theorem signsIn_createUser {d : NewUser} {f : AuthUser → AuthProcess AuthReply}
    (hf : ∀ user, SignsIn (f user)) :
    SignsIn ((.call (.createUser d) .ofExcept : AuthProcess AuthUser) >>= f) := by
  intro s s' hq
  refine (wp_bind _ _ _ _).mpr ⟨trivial, fun r t ht => (wp_ofExcept _ _ _).mpr ?_⟩
  have hquiet := hq.trans (quiet_of_serve (.inr ⟨d, rfl⟩) ht)
  cases r with
  | error e => exact hquiet
  | ok user => exact hf user s t hquiet

theorem signsIn_register (dto : RegisterDto) (req : RequestInfo) :
    SignsIn (register env dto req) := by
  apply signsIn_bind (apart_findUserByEmail _).neutral
  intro found
  cases found with
  | some user => exact signsIn_throw _
  | none =>
    apply signsIn_bind (apart_bcryptHash _).neutral
    intro hashedPassword
    apply signsIn_createUser
    intro user
    apply signsIn_bind (neutral_syncUserProjection user)
    intro _
    exact signsIn_openSession env user req none

theorem neutral_authenticate (dto : LoginDto) (req : RequestInfo) :
    IsNeutral (authenticate env dto req) := by
  apply only_bind (apart_assertNotLocked env _).neutral
  intro _
  apply only_bind (apart_assertCaptchaIfNeeded env _ _).neutral
  intro _
  apply only_bind (apart_findUserByEmail _).neutral
  intro found
  cases found with
  | none => exact (apart_refuseLogin env _ _).neutral
  | some user =>
    simp only
    split
    · exact (apart_refuseLogin env _ _).neutral
    · split
      · exact (apart_refuseLogin env _ _).neutral
      · exact neutral_afterPassword env _ _ _

theorem signsIn_login (dto : LoginDto) (req : RequestInfo) : SignsIn (login env dto req) := by
  apply signsIn_bind (neutral_authenticate env dto req)
  intro user
  split
  · apply signsIn_bind (apart_storeChallenge env _).neutral
    intro challengeId
    exact signsIn_pure (by simp)
  · split
    · split
      · exact signsIn_pure (by simp)
      · apply signsIn_bind apart_generateMfaCode.neutral
        intro code
        apply signsIn_bind (apart_storeChallenge env _).neutral
        intro challengeId
        exact signsIn_pure (by simp)
    · exact signsIn_openSession env user req none

theorem signsIn_googleSession (user : AuthUser) (profile : GoogleProfile) (req : RequestInfo) :
    SignsIn (googleSession env user profile req) := by
  unfold googleSession
  split
  · exact signsIn_pure (by simp)
  · have hsign : ∀ user : AuthUser, SignsIn (do
        syncUserProjection user
        openSession env user req none) := by
      intro user
      apply signsIn_bind (neutral_syncUserProjection user)
      intro _
      exact signsIn_openSession env user req none
    split
    · exact hsign user
    · exact signsIn_bind (only_request trivial) hsign

theorem signsIn_google (profile : GoogleProfile) (req : RequestInfo) :
    SignsIn (findOrCreateGoogleUser env profile req) := by
  unfold findOrCreateGoogleUser
  split
  · exact signsIn_pure (by simp)
  · apply signsIn_bind (apart_findUserByEmail _).neutral
    intro found
    cases found with
    | some user => exact signsIn_googleSession env user profile req
    | none =>
      simp only
      split
      · exact signsIn_pure (by simp)
      · apply signsIn_bind apart_randomUUID.neutral
        intro randomPassword
        apply signsIn_bind (apart_bcryptHash _).neutral
        intro hashedPassword
        apply signsIn_createUser
        intro user
        exact signsIn_googleSession env user profile req

theorem signsIn_verifyAdminMfa (challengeId code : String) (req : RequestInfo) :
    SignsIn (verifyAdminMfa env challengeId code req) := by
  apply signsIn_bind apart_ensureRedisConnected.neutral
  intro _
  apply signsIn_bind (apart_redisGet _).neutral
  intro raw
  split
  · rename_i payload
    split
    · exact signsIn_bind (apart_redisDel _).neutral fun _ => signsIn_throw _
    · apply signsIn_bind (apart_findUserById _).neutral
      intro found
      cases found with
      | none => exact signsIn_throw _
      | some user =>
        simp only
        split
        · exact signsIn_throw _
        · apply signsIn_bind (apart_checkCode env payload user code).neutral
          intro isValidCode
          split
          · apply signsIn_bind (apart_redisDel _).neutral
            intro _
            exact signsIn_openSession env user req _
          · apply signsIn_bind (apart_redisIncr (by simp)).neutral
            intro attempts
            apply signsIn_bind (apart_expireFirst _ _ _).neutral
            intro _
            split
            · exact signsIn_bind (apart_redisDel _).neutral fun _ => signsIn_throw _
            · exact signsIn_throw _
  · exact signsIn_throw _

end SignIn

end AuthService

end CloudVM
