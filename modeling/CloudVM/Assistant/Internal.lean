import CloudVM.Assistant.Actions

/-!
# The tokens of the assistant

The AI service signs a token of its own for each request to the VM and user services. The token
claims no fingerprint, so that both services refuse it whatever the request looks like: a confirmed
action is never executed and the context of a chat is always empty.
-/

namespace CloudVM.Assistant

open Access Text

section Strategies

variable {Token : Type} (S : AiService Token)

def JwtPayload.claims (payload : JwtPayload) : Claims where
  sub := payload.sub.getD ""
  email := payload.email.getD ""
  role := payload.role.getD ""
  fp := payload.fp

/-- A service that is asked: its secret, and what its guard sees of a request of the assistant. -/
structure Guarded where
  jwtSecret : String
  sha256 : String → String
  request : Request

/-- The strategy of a service: the signature and the expiry of the bearer token, then `validate`. -/
def Guarded.authenticate (G : Guarded) (token : Token) (now : ℕ) : Except Failure CurrentUser :=
  match S.verify token (jsTrim G.jwtSecret) now with
  | none => .error ⟨.unauthorized, "Unauthorized"⟩
  | some payload => validate G.sha256 G.request payload.claims

def Guarded.answer {β : Type} (G : Guarded) (handler : CurrentUser → FetchAnswer β) (token : Token)
    (now : ℕ) : FetchAnswer β :=
  match G.authenticate S token now with
  | .error _ => some none
  | .ok user => handler user

def Guarded.act (G : Guarded) (handler : CurrentUser → ActionRequest Token → ActionAnswer)
    (now : ℕ) (r : ActionRequest Token) : ActionAnswer :=
  match G.authenticate S r.token now with
  | .error e => .refused e.message
  | .ok user => handler user r

end Strategies

section Rejection

variable {Token : Type} {S : AiService Token}

private theorem authenticate_error (hS : S.Sealed) (G : Guarded) (now : ℕ)
    {caller : CurrentUser} {issued : ℕ} {token : Token}
    (h : createInternalToken S caller issued = .ok token) :
    ∃ e, G.authenticate S token now = .error e := by
  have hno : ¬ ∃ accepted, G.authenticate S token now = .ok accepted := by
    rintro ⟨accepted, ha⟩
    unfold createInternalToken at h
    split at h
    · cases h
    · obtain rfl := Except.ok.inj h
      unfold Guarded.authenticate at ha
      split at ha
      · cases ha
      · rename_i payload hverify
        obtain rfl := hS _ _ _ _ _ _ hverify
        obtain ⟨hfp, -⟩ := validate_ok_iff.mp ⟨accepted, ha⟩
        cases hfp
  cases ha : G.authenticate S token now with
  | error e => exact ⟨e, rfl⟩
  | ok accepted => exact absurd ⟨accepted, ha⟩ hno

/-- **Minted tokens.** No service accepts a token that the assistant signs for it. -/
theorem internal_token_rejected (S : AiService Token) (hS : S.Sealed) (vm user : Guarded)
    (caller : CurrentUser) (issued now : ℕ) (token : Token)
    (h : createInternalToken S caller issued = .ok token) :
    (¬ ∃ accepted, vm.authenticate S token now = .ok accepted) ∧
      ¬ ∃ accepted, user.authenticate S token now = .ok accepted := by
  have hreject : ∀ G : Guarded, ¬ ∃ accepted, G.authenticate S token now = .ok accepted := by
    rintro G ⟨accepted, ha⟩
    obtain ⟨e, he⟩ := authenticate_error hS G now h
    rw [he] at ha
    cases ha
  exact ⟨hreject vm, hreject user⟩

def openGuard : Guarded where
  jwtSecret := "secret"
  sha256 _ := "0a2ed211b890c1dbddadd07bfecd7ec21c75a3cd5115f434ba7493f4b7ca6d63"
  request := otherClient.request

theorem internal_token_rejected_fresh :
    createInternalToken plainService ⟨"u", "u@example.com", "USER"⟩ 0 =
      .ok ({ sub := some "u", email := some "u@example.com", role := some "USER" }, "secret", 300) ∧
    (¬ ∃ accepted, openGuard.authenticate plainService
      ({ sub := some "u", email := some "u@example.com", role := some "USER" }, "secret", 300) 1 =
        .ok accepted) ∧
    ¬ ∃ accepted, openGuard.authenticate plainService
      ({ sub := some "u", email := some "u@example.com", role := some "USER" }, "secret", 300) 1 =
        .ok accepted :=
  ⟨by rfl, internal_token_rejected plainService plainService_sealed openGuard openGuard
    ⟨"u", "u@example.com", "USER"⟩ 0 1 _ (by rfl)⟩

/-- A token that verifies at the service that is asked is refused by it. -/
theorem fresh_internal_token_refused :
    ¬ ∀ (S : AiService (JwtPayload × String × ℕ)) (G : Guarded) (caller : CurrentUser)
      (issued now : ℕ) (token : JwtPayload × String × ℕ), S.Sealed →
      createInternalToken S caller issued = .ok token → now < issued + 300 →
      G.jwtSecret = S.jwtSecret → ∃ accepted, G.authenticate S token now = .ok accepted := by
  intro hall
  obtain ⟨accepted, h⟩ := hall plainService openGuard ⟨"u", "u@example.com", "USER"⟩ 0 1
    ({ sub := some "u", email := some "u@example.com", role := some "USER" }, "secret", 300)
    plainService_sealed (by rfl) (by decide) rfl
  have hrefused : openGuard.authenticate plainService
      ({ sub := some "u", email := some "u@example.com", role := some "USER" }, "secret", 300) 1 =
        .error ⟨.unauthorized, "Token fingerprint mismatch"⟩ := by rfl
  rw [hrefused] at h
  cases h

/-- No chat call sees a VM, a quota or a count. -/
theorem fetchAppContext_empty (hS : S.Sealed) (vm user : Guarded) {caller : CurrentUser}
    {issued now : ℕ} {context : AppContext} (stats : CurrentUser → FetchAnswer VmStats)
    (vms : CurrentUser → FetchAnswer (List VmContextItem))
    (profile : CurrentUser → FetchAnswer (Option UserQuota))
    (h : fetchAppContext S caller issued (fun token => ⟨vm.answer S stats token now,
      vm.answer S vms token now, user.answer S profile token now⟩) = .ok context) :
    context = {} := by
  unfold fetchAppContext at h
  cases ht : createInternalToken S caller issued with
  | error e =>
    rw [ht] at h
    cases h
  | ok token =>
    obtain ⟨e, hvm⟩ := authenticate_error hS vm now ht
    obtain ⟨e', huser⟩ := authenticate_error hS user now ht
    rw [ht] at h
    have hc := Except.ok.inj h
    simp only [Guarded.answer, hvm, huser] at hc
    exact hc.symm

/-- No confirmation is executed. -/
theorem confirmAction_fails (hS : S.Sealed) (vm : Guarded) {caller : CurrentUser} {token : Token}
    {issued now : ℕ} (handler : CurrentUser → ActionRequest Token → ActionAnswer)
    (stored : Except Failure Unit) :
    ∃ e, confirmAction S caller token issued (vm.act S handler now) stored = .error e := by
  unfold confirmAction
  cases hr : actionRequest S caller token issued with
  | error e => exact ⟨e, rfl⟩
  | ok sent =>
    obtain ⟨payload, r⟩ := sent
    have htoken : createInternalToken S caller issued = .ok r.token := by
      unfold actionRequest at hr
      split at hr
      · cases hr
      · split at hr
        · cases hr
        · split at hr
          · cases hr
          · obtain ⟨_, -, hr⟩ := bind_ok hr
            obtain ⟨t, ht, hr⟩ := bind_ok hr
            obtain ⟨rfl, rfl⟩ := Prod.mk.inj (Except.ok.inj hr)
            exact ht
    obtain ⟨e, he⟩ := authenticate_error hS vm now htoken
    have hact : vm.act S handler now r = .refused e.message := by
      simp only [Guarded.act, he]
    exact ⟨_, by simp only [hact, bind, Except.bind]; rfl⟩

end Rejection

end CloudVM.Assistant
