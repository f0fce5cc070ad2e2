import CloudVM.Auth.Service

/-!
# Postgres and Redis under the auth service

The tables `users` and `refresh_tokens` with their constraints, the entries in Redis, the time,
and the random values drawn so far. An entry of Redis may be gone whenever it is read.
-/

namespace CloudVM

/-- Ids come from `uuid()`, TOTP secrets from `generateTotpSecret`; neither is ever empty. -/
def AuthUser.Valid (u : AuthUser) : Prop := u.id ≠ "" ∧ u.mfaSecret ≠ some ""

structure AuthStore where
  users : Table AuthUser.id
  valid : ∀ u ∈ users.rows, u.Valid
  tokens : Table RefreshRow.id
  unique : (tokens.rows.map RefreshRow.token).Nodup
  owner : ∀ row ∈ tokens.rows, ∃ u ∈ users.rows, u.id = row.userId
  redis : RedisKey → Option RedisValue
  clock : Nat
  drawn : List String

namespace AuthStore

/-- The service before its first request, over any users. -/
def initial (users : Table AuthUser.id) (valid : ∀ u ∈ users.rows, u.Valid) (clock : Nat) :
    AuthStore where
  users := users
  valid := valid
  tokens := .empty
  unique := by simp
  owner := by simp
  redis := fun _ => none
  clock := clock
  drawn := []

variable (s : AuthStore)

section Updates

def eraseTokens (p : RefreshRow → Bool) : AuthStore where
  users := s.users
  valid := s.valid
  tokens := s.tokens.erase p
  unique := s.unique.sublist (List.filter_sublist.map _)
  owner := fun row hm => s.owner row ((Table.mem_erase _ _ _).mp hm).1
  redis := s.redis
  clock := s.clock
  drawn := s.drawn

/-- The `INSERT` of a row whose id and token are free and whose user exists. -/
def insertToken (row : RefreshRow) (hid : row.id ∉ s.tokens.rows.map RefreshRow.id)
    (htoken : row.token ∉ s.tokens.rows.map RefreshRow.token)
    (howner : ∃ u ∈ s.users.rows, u.id = row.userId) : AuthStore where
  users := s.users
  valid := s.valid
  tokens := s.tokens.insert row hid
  unique := Table.nodup_map_concat s.unique htoken
  owner := by
    intro r hr
    rcases List.mem_append.mp hr with hr | hr
    · exact s.owner r hr
    · obtain rfl := List.mem_singleton.mp hr
      exact howner
  redis := s.redis
  clock := s.clock
  drawn := s.drawn

def insertUser (u : AuthUser) (hid : u.id ∉ s.users.rows.map AuthUser.id) (hu : u.Valid) :
    AuthStore where
  users := s.users.insert u hid
  valid := by
    intro v hv
    rcases List.mem_append.mp hv with hv | hv
    · exact s.valid v hv
    · obtain rfl := List.mem_singleton.mp hv
      exact hu
  tokens := s.tokens
  unique := s.unique
  owner := by
    intro row hm
    obtain ⟨v, hv, hid⟩ := s.owner row hm
    exact ⟨v, List.mem_append_left _ hv, hid⟩
  redis := s.redis
  clock := s.clock
  drawn := s.drawn

/-- An `UPDATE` of one user that leaves the id and the TOTP secret alone. -/
def modifyUser (userId : String) (f : AuthUser → AuthUser) (hid : ∀ u, (f u).id = u.id)
    (hsecret : ∀ u, (f u).mfaSecret = u.mfaSecret) : AuthStore where
  users := s.users.modify (fun u => u.id = userId) f hid
  valid := by
    intro v hv
    obtain ⟨u, hu, rfl⟩ := (Table.mem_modify _ _ _ _ _).mp hv
    have hvalid := s.valid u hu
    by_cases h : u.id = userId
    · simpa [h, AuthUser.Valid, hid, hsecret] using hvalid
    · simpa [h] using hvalid
  tokens := s.tokens
  unique := s.unique
  owner := by
    intro row hm
    obtain ⟨u, hu, he⟩ := s.owner row hm
    refine ⟨_, (Table.mem_modify _ _ _ _ _).mpr ⟨u, hu, rfl⟩, ?_⟩
    by_cases h : u.id = userId
    · simpa [h, hid] using he
    · simpa [h] using he
  redis := s.redis
  clock := s.clock
  drawn := s.drawn

def put (key : RedisKey) (v : RedisValue) : AuthStore :=
  { s with redis := fun k => if k = key then some v else s.redis k }

def forget (keys : List RedisKey) : AuthStore :=
  { s with redis := fun k => if k ∈ keys then none else s.redis k }

def counter (key : RedisKey) : Nat :=
  match s.redis key with
  | some (.counter n) => n
  | _ => 0

end Updates

def findUser (p : AuthUser → Bool) : Option AuthUser := s.users.rows.find? p

/-- `refreshToken.findUnique` by token, with its user. -/
def findToken : Bearer → Option (RefreshRow × AuthUser)
  | .signed t => do
    let row ← s.tokens.rows.find? fun row => row.token = t
    let user ← s.users.find? row.userId
    pure (row, user)
  | .other _ => none

theorem findToken_some {s : AuthStore} {t : RefreshPayload} {row : RefreshRow} {user : AuthUser}
    (h : s.findToken (.signed t) = some (row, user)) :
    row ∈ s.tokens.rows ∧ row.token = t ∧ s.users.find? row.userId = some user := by
  simp only [findToken, Option.bind_eq_bind, Option.pure_def, Option.bind_eq_some_iff,
    Option.some.injEq, Prod.mk.injEq] at h
  obtain ⟨row', hrow, user', huser, rfl, rfl⟩ := h
  have ht : row'.token = t := by simpa using List.find?_some hrow
  exact ⟨List.mem_of_find?_eq_some hrow, ht, huser⟩

theorem findToken_none {s : AuthStore} {t : RefreshPayload} (h : s.findToken (.signed t) = none) :
    ∀ row ∈ s.tokens.rows, row.token ≠ t := by
  intro row hm ht
  cases hrow : s.tokens.rows.find? fun row => row.token = t with
  | none =>
    have hn := List.find?_eq_none.mp hrow row hm
    simp [ht] at hn
  | some row' =>
    obtain ⟨u, hu, hid⟩ := s.owner row' (List.mem_of_find?_eq_some hrow)
    have huser : s.users.find? row'.userId = some u := s.users.find?_eq_some.mpr ⟨hu, hid⟩
    simp [findToken, hrow, huser] at h

/-- A unique column of `users` holds the value already. -/
def Taken (email : String) (googleId : Option String) : Prop :=
  ∃ u ∈ s.users.rows, u.email = email ∨ (googleId ≠ none ∧ u.googleId = googleId)

end AuthStore

/-- The row that `user.create` makes. -/
def NewUser.toUser (d : NewUser) (id : String) : AuthUser :=
  { id, email := d.email, googleId := d.googleId, password := d.password
    firstName := d.firstName, lastName := d.lastName }

/-- How a call is answered when Postgres and Redis work. -/
def AuthStore.serve : (c : AuthCall) → AuthStore → c.Answer → AuthStore → Prop
  | .now, s, r, s' => r = s.clock ∧ s' = s
  | .randomUUID, s, r, s' => r ≠ "" ∧ r ∉ s.drawn ∧ s' = { s with drawn := r :: s.drawn }
  | .generateMfaCode, s, _, s' => s' = s
  | .bcryptHash _, s, _, s' => s' = s
  | .redisConnect, s, r, s' => r = .ok () ∧ s' = s
  | .redisGet k, s, r, s' => r = .ok (s'.redis k) ∧ (s' = s ∨ s' = s.forget [k])
  | .redisTtl k, s, r, s' => (∃ n, r = .ok n ∧ (0 < n → s.redis k ≠ none)) ∧ s' = s
  | .redisSet k v _, s, r, s' => r = .ok () ∧ s' = s.put k v
  | .redisDel keys, s, r, s' => r = .ok () ∧ s' = s.forget keys
  | .redisIncr k, s, r, s' =>
      ∃ n, (n = s.counter k ∨ n = 0) ∧ r = .ok (n + 1) ∧ s' = s.put k (.counter (n + 1))
  | .redisExpire _ _, s, r, s' => r = .ok () ∧ s' = s
  | .findUserByEmail email, s, r, s' => r = .ok (s.findUser fun u => u.email = email) ∧ s' = s
  | .findUserById userId, s, r, s' => r = .ok (s.users.find? userId) ∧ s' = s
  | .createUser d, s, r, s' =>
      (s.Taken d.email d.googleId ∧ (∃ e, r = .error e) ∧ s' = s) ∨
      (¬ s.Taken d.email d.googleId ∧ ∃ id hid hu,
        r = .ok (d.toUser id) ∧ s' = s.insertUser (d.toUser id) hid hu)
  | .setGoogleId userId googleId, s, r, s' =>
      ((s.users.find? userId = none ∨
          ∃ v ∈ s.users.rows, v.id ≠ userId ∧ v.googleId = some googleId) ∧
        (∃ e, r = .error e) ∧ s' = s) ∨
      (∃ u, s.users.find? userId = some u ∧
        (∀ v ∈ s.users.rows, v.id ≠ userId → v.googleId ≠ some googleId) ∧
        r = .ok { u with googleId := some googleId } ∧
        s' = s.modifyUser userId (fun u => { u with googleId := some googleId })
          (fun _ => rfl) fun _ => rfl)
  | .setRecoveryHashes userId hashes, s, r, s' =>
      (s.users.find? userId = none ∧ (∃ e, r = .error e) ∧ s' = s) ∨
      (s.users.find? userId ≠ none ∧ r = .ok () ∧
        s' = s.modifyUser userId (fun u => { u with mfaRecoveryCodeHashes := hashes })
          (AuthUser.id_with_hashes hashes) fun _ => rfl)
  | .createRefreshToken token userId expiresAt, s, r, s' =>
      ((token ∈ s.tokens.rows.map RefreshRow.token ∨ ∀ u ∈ s.users.rows, u.id ≠ userId) ∧
        (∃ e, r = .error e) ∧ s' = s) ∨
      (∃ id hid htoken howner, r = .ok () ∧
        s' = s.insertToken ⟨id, token, userId, expiresAt⟩ hid htoken howner)
  | .findRefreshToken token, s, r, s' => r = .ok (s.findToken token) ∧ s' = s
  | .deleteTokensOf userId, s, r, s' =>
      r = .ok () ∧ s' = s.eraseTokens fun row => row.userId = userId
  | .deleteTokenRow rowId, s, r, s' => r = .ok () ∧ s' = s.eraseTokens fun row => row.id = rowId
  | .deleteToken token, s, r, s' =>
      ((∀ row ∈ s.tokens.rows, .signed row.token ≠ token) ∧ (∃ e, r = .error e) ∧ s' = s) ∨
      ((∃ row ∈ s.tokens.rows, .signed row.token = token) ∧ r = .ok () ∧
        s' = s.eraseTokens fun row => .signed row.token = token)
  | .syncUserProjection _, s, _, s' => s' = s
  | .logMfaAudit _ _, s, _, s' => s' = s

theorem AuthStore.serve_total (c : AuthCall) (s : AuthStore) : ∃ r s', serve c s r s' := by
  cases c with
  | now | redisConnect | redisSet | redisDel | redisExpire | findUserByEmail | findUserById |
    findRefreshToken | deleteTokensOf | deleteTokenRow => exact ⟨_, _, rfl, rfl⟩
  | generateMfaCode | bcryptHash => exact ⟨"", _, rfl⟩
  | syncUserProjection | logMfaAudit => exact ⟨.ok (), _, rfl⟩
  | redisGet key => exact ⟨_, s, rfl, .inl rfl⟩
  | redisTtl key => exact ⟨_, _, ⟨0, rfl, by simp⟩, rfl⟩
  | redisIncr key => exact ⟨_, _, 0, .inr rfl, rfl, rfl⟩
  | randomUUID =>
    obtain ⟨x, hne, hx⟩ := Text.exists_fresh s.drawn
    exact ⟨x, _, hne, hx, rfl⟩
  | createUser d =>
    by_cases ht : s.Taken d.email d.googleId
    · exact ⟨_, _, .inl ⟨ht, ⟨⟨.internal, ""⟩, rfl⟩, rfl⟩⟩
    · obtain ⟨x, hne, hx⟩ := Text.exists_fresh (s.users.rows.map AuthUser.id)
      exact ⟨_, _, .inr ⟨ht, x, hx, ⟨hne, by simp [NewUser.toUser]⟩, rfl, rfl⟩⟩
  | setGoogleId userId googleId =>
    by_cases hv : ∃ v ∈ s.users.rows, v.id ≠ userId ∧ v.googleId = some googleId
    · exact ⟨_, _, .inl ⟨.inr hv, ⟨⟨.internal, ""⟩, rfl⟩, rfl⟩⟩
    · cases hu : s.users.find? userId with
      | none => exact ⟨_, _, .inl ⟨.inl hu, ⟨⟨.internal, ""⟩, rfl⟩, rfl⟩⟩
      | some u =>
        refine ⟨_, _, .inr ⟨u, hu, ?_, rfl, rfl⟩⟩
        intro v hm hid hg
        exact hv ⟨v, hm, hid, hg⟩
  | setRecoveryHashes userId hashes =>
    by_cases hu : s.users.find? userId = none
    · exact ⟨_, _, .inl ⟨hu, ⟨⟨.internal, ""⟩, rfl⟩, rfl⟩⟩
    · exact ⟨_, _, .inr ⟨hu, rfl, rfl⟩⟩
  | createRefreshToken token userId expiresAt =>
    by_cases hbad : token ∈ s.tokens.rows.map RefreshRow.token ∨ ∀ u ∈ s.users.rows, u.id ≠ userId
    · exact ⟨_, _, .inl ⟨hbad, ⟨⟨.internal, ""⟩, rfl⟩, rfl⟩⟩
    · obtain ⟨x, -, hx⟩ := Text.exists_fresh (s.tokens.rows.map RefreshRow.id)
      simp only [not_or, not_forall, not_not] at hbad
      obtain ⟨htoken, u, hu, hid⟩ := hbad
      exact ⟨_, _, .inr ⟨x, hx, htoken, ⟨u, hu, hid⟩, rfl, rfl⟩⟩
  | deleteToken token =>
    by_cases hrow : ∃ row ∈ s.tokens.rows, .signed row.token = token
    · exact ⟨_, _, .inr ⟨hrow, rfl, rfl⟩⟩
    · refine ⟨_, _, .inl ⟨?_, ⟨⟨.internal, ""⟩, rfl⟩, rfl⟩⟩
      intro row hm he
      exact hrow ⟨row, hm, he⟩

def AuthCall.Fails : (c : AuthCall) → c.Answer → Prop
  | .now, _ => False
  | .randomUUID, _ => False
  | .generateMfaCode, _ => False
  | .bcryptHash _, _ => False
  | .redisConnect, r => ∃ e, r = .error e
  | .redisGet _, r => ∃ e, r = .error e
  | .redisTtl _, r => ∃ e, r = .error e
  | .redisSet _ _ _, r => ∃ e, r = .error e
  | .redisDel _, r => ∃ e, r = .error e
  | .redisIncr _, r => ∃ e, r = .error e
  | .redisExpire _ _, r => ∃ e, r = .error e
  | .findUserByEmail _, r => ∃ e, r = .error e
  | .findUserById _, r => ∃ e, r = .error e
  | .createUser _, r => ∃ e, r = .error e
  | .setGoogleId _ _, r => ∃ e, r = .error e
  | .setRecoveryHashes _ _, r => ∃ e, r = .error e
  | .createRefreshToken _ _ _, r => ∃ e, r = .error e
  | .findRefreshToken _, r => ∃ e, r = .error e
  | .deleteTokensOf _, r => ∃ e, r = .error e
  | .deleteTokenRow _, r => ∃ e, r = .error e
  | .deleteToken _, r => ∃ e, r = .error e
  | .syncUserProjection _, r => ∃ e, r = .error e
  | .logMfaAudit _ _, r => ∃ e, r = .error e

/-- How a call is answered when connections may break: also with an error, and then the call
may have had its effect all the same. -/
def AuthStore.mayServe (c : AuthCall) (s : AuthStore) (r : c.Answer) (s' : AuthStore) : Prop :=
  serve c s r s' ∨ (c.Fails r ∧ (s' = s ∨ ∃ r', serve c s r' s'))

/-- What happens around the service: time passes, entries of Redis get lost, users are edited. -/
structure AuthStore.Passes (s s' : AuthStore) : Prop where
  tokens : s'.tokens = s.tokens
  drawn : s'.drawn = s.drawn
  clock : s.clock ≤ s'.clock
  redis : ∀ key v, s'.redis key = some v → s.redis key = some v

end CloudVM
