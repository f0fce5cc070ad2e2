import CloudVM.Auth.Edit
import CloudVM.Framework.Requests

/-!
# The auth service under concurrent requests

Any number of requests are under way, their calls in any order; connections may break.
-/

namespace CloudVM

open AuthStore Process AuthService

abbrev AuthLog := List (Event authInterface)

abbrev AuthTask := Task authInterface Failure AuthReply (AuthRequest × RequestInfo)

def authServer (env : AuthEnv) :
    Server authInterface Failure AuthReply (AuthRequest × RequestInfo) AuthStore where
  handler := AuthRequest.handle env
  effect := fun _ _ c s r s' => mayServe c s r s'
  change := AuthStore.Passes

abbrev AuthStage := Stage authInterface Failure AuthReply (AuthRequest × RequestInfo) AuthStore

abbrev AuthLabel := StageLabel authInterface (AuthRequest × RequestInfo)

section Calls

def AuthCall.StoresNothing (c : AuthCall) : Prop := ∀ t u e, c ≠ .createRefreshToken t u e

theorem AuthCall.Neutral.storesNothing {c : AuthCall} (h : c.Neutral) : c.StoresNothing := by
  intro t u e hc
  subst hc
  exact h

variable {s s' : AuthStore}

theorem grows_of_serve {c : AuthCall} {r : c.Answer} (h : serve c s r s') :
    s.drawn ⊆ s'.drawn ∧ ∀ row ∈ s'.tokens.rows,
      row ∈ s.tokens.rows ∨ ∃ e, c = .createRefreshToken row.token row.userId e := by
  have hquiet : Quiet s s' → s.drawn ⊆ s'.drawn ∧ ∀ row ∈ s'.tokens.rows,
      row ∈ s.tokens.rows ∨ ∃ e, c = .createRefreshToken row.token row.userId e := by
    intro hq
    refine ⟨hq.drawn, fun row hm => .inl ?_⟩
    rwa [hq.tokens] at hm
  have herase : ∀ p, s' = s.eraseTokens p → s.drawn ⊆ s'.drawn ∧ ∀ row ∈ s'.tokens.rows,
      row ∈ s.tokens.rows ∨ ∃ e, c = .createRefreshToken row.token row.userId e := by
    intro p hs
    subst hs
    exact ⟨fun _ hj => hj, fun row hm => .inl ((Table.mem_erase _ _ _).mp hm).1⟩
  by_cases hc : c.Neutral ∨ ∃ d, c = .createUser d
  · exact hquiet (quiet_of_serve hc h)
  · cases c with
    | findRefreshToken token =>
      obtain ⟨-, rfl⟩ := h
      exact hquiet (.refl _)
    | deleteTokensOf userId => exact herase _ h.2
    | deleteTokenRow rowId => exact herase _ h.2
    | deleteToken token =>
      rcases h with ⟨-, -, rfl⟩ | ⟨-, -, hs⟩
      · exact hquiet (.refl _)
      · exact herase _ hs
    | createRefreshToken token userId expiresAt =>
      rcases h with ⟨-, -, rfl⟩ | ⟨id, hid, htoken, howner, -, rfl⟩
      · exact hquiet (.refl _)
      · refine ⟨fun _ hj => hj, fun row hm => ?_⟩
        rcases List.mem_append.mp hm with hm | hm
        · exact .inl hm
        · obtain rfl := List.mem_singleton.mp hm
          exact .inr ⟨_, rfl⟩
    | redisSet key v ttl =>
      obtain ⟨-, rfl⟩ := h
      exact ⟨fun _ hj => hj, fun row hm => .inl hm⟩
    | redisIncr key =>
      obtain ⟨n, -, -, rfl⟩ := h
      exact ⟨fun _ hj => hj, fun row hm => .inl hm⟩
    | createUser d => exact (hc (.inr ⟨d, rfl⟩)).elim
    | _ => exact (hc (.inl trivial)).elim

theorem grows_of_mayServe {c : AuthCall} {r : c.Answer} (h : mayServe c s r s') :
    s.drawn ⊆ s'.drawn ∧ ∀ row ∈ s'.tokens.rows,
      row ∈ s.tokens.rows ∨ ∃ e, c = .createRefreshToken row.token row.userId e := by
  rcases h with h | ⟨-, rfl | ⟨r', h⟩⟩
  · exact grows_of_serve h
  · exact ⟨fun _ hj => hj, fun row hm => .inl hm⟩
  · exact grows_of_serve h

/-- A row of `users` after a call: one that was there, its role and `isActive` as before, or one
that the call made. -/
def Descends (c : AuthCall) (s : AuthStore) (u : AuthUser) : Prop :=
  (∃ u₀ ∈ s.users.rows, u₀.id = u.id ∧ u₀.role = u.role ∧ u₀.isActive = u.isActive) ∨
    ∃ d id, c = .createUser d ∧ u = d.toUser id ∧ id ∉ s.users.rows.map AuthUser.id

private theorem descends_of_eq {c : AuthCall} (h : s'.users = s.users) {u : AuthUser}
    (hu : u ∈ s'.users.rows) : Descends c s u := .inl ⟨u, h ▸ hu, rfl, rfl, rfl⟩

private theorem descends_of_modify {c : AuthCall} {userId : String} {f : AuthUser → AuthUser}
    {hid : ∀ u, (f u).id = u.id} {hsecret : ∀ u, (f u).mfaSecret = u.mfaSecret} {u : AuthUser}
    (hu : u ∈ (s.modifyUser userId f hid hsecret).users.rows)
    (hrole : ∀ u, (f u).role = u.role) (hactive : ∀ u, (f u).isActive = u.isActive) :
    Descends c s u := by
  obtain ⟨u₀, hu₀, rfl⟩ := (Table.mem_modify _ _ _ hid _).mp hu
  refine .inl ⟨u₀, hu₀, ?_⟩
  by_cases h : u₀.id = userId
  · simp [h, hid, hrole, hactive]
  · simp [h]

theorem users_of_serve {c : AuthCall} {r : c.Answer} (h : serve c s r s') {u : AuthUser}
    (hu : u ∈ s'.users.rows) : Descends c s u := by
  cases c with
  | now | redisConnect | redisTtl | redisExpire | findUserByEmail | findUserById | redisSet |
    redisDel | findRefreshToken | deleteTokensOf | deleteTokenRow =>
    obtain ⟨-, rfl⟩ := h
    exact descends_of_eq rfl hu
  | generateMfaCode | bcryptHash | syncUserProjection | logMfaAudit =>
    obtain rfl := h
    exact descends_of_eq rfl hu
  | randomUUID =>
    obtain ⟨-, -, rfl⟩ := h
    exact descends_of_eq rfl hu
  | redisGet key =>
    rcases h.2 with rfl | rfl <;> exact descends_of_eq rfl hu
  | redisIncr key =>
    obtain ⟨n, -, -, rfl⟩ := h
    exact descends_of_eq rfl hu
  | createRefreshToken token userId expiresAt =>
    rcases h with ⟨-, -, rfl⟩ | ⟨id, hid, htoken, howner, -, rfl⟩ <;> exact descends_of_eq rfl hu
  | deleteToken token =>
    rcases h with ⟨-, -, rfl⟩ | ⟨-, -, rfl⟩ <;> exact descends_of_eq rfl hu
  | createUser d =>
    rcases h with ⟨-, -, rfl⟩ | ⟨-, id, hid, hvalid, -, rfl⟩
    · exact descends_of_eq rfl hu
    · rcases List.mem_append.mp hu with hu | hu
      · exact .inl ⟨u, hu, rfl, rfl, rfl⟩
      · obtain rfl := List.mem_singleton.mp hu
        exact .inr ⟨d, id, rfl, rfl, hid⟩
  | setGoogleId userId googleId =>
    rcases h with ⟨-, -, rfl⟩ | ⟨u₀, -, -, -, rfl⟩
    · exact descends_of_eq rfl hu
    · exact descends_of_modify hu (fun _ => rfl) fun _ => rfl
  | setRecoveryHashes userId hashes =>
    rcases h with ⟨-, -, rfl⟩ | ⟨-, -, rfl⟩
    · exact descends_of_eq rfl hu
    · exact descends_of_modify hu (fun _ => rfl) fun _ => rfl

theorem users_of_mayServe {c : AuthCall} {r : c.Answer} (h : mayServe c s r s') {u : AuthUser}
    (hu : u ∈ s'.users.rows) : Descends c s u := by
  rcases h with h | ⟨-, rfl | ⟨r', h⟩⟩
  · exact users_of_serve h hu
  · exact descends_of_eq rfl hu
  · exact users_of_serve h hu

theorem lookup_of_mayServe {t : RefreshPayload} {row : RefreshRow} {user : AuthUser}
    (h : mayServe (.findRefreshToken (.signed t)) s (.ok (some (row, user))) s') :
    s' = s ∧ row ∈ s.tokens.rows ∧ row.token = t ∧ s.users.find? row.userId = some user := by
  rcases h with ⟨hfind, rfl⟩ | ⟨⟨e, hfail⟩, -⟩
  · exact ⟨rfl, findToken_some (Except.ok.inj hfind).symm⟩
  · cases hfail

theorem user_of_mayServe {email : String} {user : AuthUser}
    (h : mayServe (.findUserByEmail email) s (.ok (some user)) s') :
    s' = s ∧ user ∈ s.users.rows := by
  rcases h with ⟨hfind, rfl⟩ | ⟨⟨e, hfail⟩, -⟩
  · exact ⟨rfl, List.mem_of_find?_eq_some (Except.ok.inj hfind).symm⟩
  · cases hfail

theorem userById_of_mayServe {userId : String} {user : AuthUser}
    (h : mayServe (.findUserById userId) s (.ok (some user)) s') :
    s' = s ∧ user ∈ s.users.rows ∧ user.id = userId := by
  rcases h with ⟨hfind, rfl⟩ | ⟨⟨e, hfail⟩, -⟩
  · exact ⟨rfl, (Table.find?_eq_some _).mp (Except.ok.inj hfind).symm⟩
  · cases hfail

theorem googleId_of_mayServe {userId googleId : String} {user : AuthUser}
    (h : mayServe (.setGoogleId userId googleId) s (.ok user) s') :
    ∃ u ∈ s.users.rows, u.id = userId ∧ user = { u with googleId := some googleId } := by
  rcases h with (⟨-, ⟨e, hfail⟩, -⟩ | ⟨u, hfind, -, hr, -⟩) | ⟨⟨e, hfail⟩, -⟩
  · cases hfail
  · obtain ⟨hu, hid⟩ := (Table.find?_eq_some _).mp hfind
    exact ⟨u, hu, hid, Except.ok.inj hr⟩
  · cases hfail

theorem newUser_of_mayServe {d : NewUser} {user : AuthUser}
    (h : mayServe (.createUser d) s (.ok user) s') :
    user ∈ s'.users.rows ∧ ∃ id, user = d.toUser id := by
  rcases h with (⟨-, ⟨e, hfail⟩, -⟩ | ⟨-, id, hid, hvalid, hr, rfl⟩) | ⟨⟨e, hfail⟩, -⟩
  · cases hfail
  · cases hr
    exact ⟨List.mem_append_right _ (List.mem_singleton_self _), id, rfl⟩
  · cases hfail

theorem freshId_of_mayServe {d : NewUser} {user : AuthUser}
    (h : mayServe (.createUser d) s (.ok user) s') : user.id ∉ s.users.rows.map AuthUser.id := by
  rcases h with (⟨-, ⟨e, hfail⟩, -⟩ | ⟨-, id, hid, hvalid, hr, rfl⟩) | ⟨⟨e, hfail⟩, -⟩
  · cases hfail
  · cases hr
    exact hid
  · cases hfail

end Calls

end CloudVM
