import CloudVM.Framework.Language
import CloudVM.Framework.Text

/-!
# Which limit a path falls under

The rules of the gateway's rate limiter, the routes by which a request of the gateway reaches a
handler of the auth or the AI service, and the paths for which both agree.
-/

namespace CloudVM.Limits

open Pattern Computability

section Expressions

def literal (text : String) : Pattern Char := letters (fun c d => c == d) text.toList

/-- A text in an expression with the flag `i`. -/
def anyCase (text : String) : Pattern Char :=
  letters (fun c d => c.toLower == d.toLower) text.toList

/-- What `.` matches. -/
def inLine (c : Char) : Bool := !(c == '\n' || c == '\r' || c == '\u2028' || c == '\u2029')

end Expressions

section Rules

structure RateLimitRule where
  name : String
  method : String
  path : Pattern Char
  limit : ℕ
  windowSeconds : ℕ

def defaultRule : RateLimitRule where
  name := "default"
  method := "*"
  path := seq start (literal "/api/")
  limit := 60
  windowSeconds := 60

def authLogin : RateLimitRule where
  name := "auth-login"
  method := "POST"
  path := seq start (seq (literal "/api/auth/login") stop)
  limit := 10
  windowSeconds := 60

def authRegister : RateLimitRule where
  name := "auth-register"
  method := "POST"
  path := seq start (seq (literal "/api/auth/register") stop)
  limit := 5
  windowSeconds := 60

def authMfaVerify : RateLimitRule where
  name := "auth-mfa-verify"
  method := "POST"
  path := seq start (seq (literal "/api/auth/mfa/verify") stop)
  limit := 8
  windowSeconds := 60

def aiChat : RateLimitRule where
  name := "ai-chat"
  method := "POST"
  path := seq start (seq (literal "/api/ai/chat") stop)
  limit := 20
  windowSeconds := 60

def strictRules : List RateLimitRule := [authLogin, authRegister, authMfaVerify, aiChat]

/-- `toUpperCase` on a method, which is ASCII. -/
def toUpperCase (method : String) : String := String.ofList (method.toList.map Char.toUpper)

def resolveRule (method path : String) : Option RateLimitRule :=
  let selected := strictRules.find? fun rule =>
    rule.method == toUpperCase method && rule.path.test path.toList
  match selected with
  | some rule => some rule
  | none => if defaultRule.path.test path.toList then some defaultRule else none

end Rules

section Routes

/-- The expression Express makes of a path: any letter case, one more slash at the end. -/
def route (path : String) : Pattern Char :=
  seq start (seq (seq (anyCase path) (optional (literal "/"))) stop)

/-- The expression Express makes of a path that ends in a star. -/
def routeBelow (base : String) : Pattern Char :=
  seq start (seq (seq (anyCase (base ++ "/")) (seq (Pattern.star (one inLine)) (optional (literal "/")))) stop)

/-- The two services with a handler that has a limit of its own. -/
inductive Service where
  | auth
  | ai
deriving DecidableEq, Repr

/-- The key of `pathRewrite`, which is also where the gateway mounts the proxy. -/
def Service.outside : Service → String
  | auth => "/api/auth"
  | ai => "/api/ai"

/-- What `pathRewrite` puts in its place, which is also the path of the controller. -/
def Service.inside : Service → String
  | auth => "/auth"
  | ai => "/ai"

/-- A `POST` to the path goes to the service. -/
def Service.proxied (service : Service) (path : String) : Bool :=
  (route service.outside).test path.toList || (routeBelow service.outside).test path.toList

def Service.pathRewrite (service : Service) (path : String) : String :=
  if (seq start (literal service.outside)).test path.toList then
    service.inside ++ String.ofList (path.toList.drop service.outside.length)
  else path

/-- The handlers behind the strict rules. -/
inductive Handler where
  | login
  | register
  | verifyMfa
  | chat
deriving DecidableEq, Repr

namespace Handler

def service : Handler → Service
  | login | register | verifyMfa => .auth
  | chat => .ai

/-- The path of `@Post`. -/
def below : Handler → String
  | login => "/login"
  | register => "/register"
  | verifyMfa => "/mfa/verify"
  | chat => "/chat"

def path (handler : Handler) : String := handler.service.inside ++ handler.below

def rule : Handler → RateLimitRule
  | login => authLogin
  | register => authRegister
  | verifyMfa => authMfaVerify
  | chat => aiChat

/-- A `POST` to the path comes to the handler by way of the gateway. -/
def receives (handler : Handler) (path : String) : Bool :=
  handler.service.proxied path &&
    (route handler.path).test (handler.service.pathRewrite path).toList

def address (handler : Handler) : String := handler.service.outside ++ handler.below

end Handler

end Routes

section Spelling

private theorem takes_literal (text : String) :
    Takes (literal text) (spellings (fun c d => c == d) text.toList) :=
  takes_letters _ _

private theorem begins_iff (text path : String) :
    (seq start (literal text)).test path.toList = true ↔ text.toList <+: path.toList := by
  rw [test_begins (takes_literal text)]
  simp only [mem_spellings_eq]
  simp

private theorem whole_iff (text path : String) :
    (seq start (seq (literal text) stop)).test path.toList = true ↔ path = text := by
  rw [test_whole (takes_literal text), mem_spellings_eq, String.toList_inj]

def lowered (w : List Char) : List Char := w.map Char.toLower

private theorem takes_anyCase (text : String) :
    Takes (anyCase text) (spellings (fun c d => c.toLower == d.toLower) text.toList) :=
  takes_letters _ _

private theorem mem_anyCase {text : String} {w : List Char} :
    w ∈ spellings (fun c d => c.toLower == d.toLower) text.toList ↔
      lowered w = lowered text.toList :=
  mem_spellings_map

private theorem mem_slash {w : List Char} :
    w ∈ spellings (fun c d => c == d) "/".toList + 1 ↔ w = [] ∨ w = ['/'] := by
  rw [Language.mem_add, mem_spellings_eq, Language.mem_one, Or.comm]
  rfl

theorem route_iff (path : String) (text : List Char) :
    (route path).test text = true ↔
      ∃ w tail, text = w ++ tail ∧ lowered w = lowered path.toList ∧ (tail = [] ∨ tail = ['/']) := by
  rw [route, test_whole ((takes_anyCase path).seq (takes_literal "/").optional), Language.mem_mul]
  constructor
  · rintro ⟨w, hw, tail, htail, rfl⟩
    exact ⟨w, tail, rfl, mem_anyCase.mp hw, mem_slash.mp htail⟩
  · rintro ⟨w, tail, rfl, hw, htail⟩
    exact ⟨w, mem_anyCase.mpr hw, tail, mem_slash.mpr htail, rfl⟩

private theorem routeBelow_begins {base : String} {text : List Char}
    (h : (routeBelow base).test text = true) :
    ∃ w, w <+: text ∧ lowered w = lowered (base ++ "/").toList := by
  have htakes := (takes_anyCase (base ++ "/")).seq
    ((takes_one inLine).star.seq (takes_literal "/").optional)
  rw [routeBelow, test_whole htakes, Language.mem_mul] at h
  obtain ⟨w, hw, tail, -, rfl⟩ := h
  exact ⟨w, List.prefix_append w tail, mem_anyCase.mp hw⟩

theorem proxied_begins {service : Service} {path : String} (h : service.proxied path = true) :
    ∃ w, w <+: path.toList ∧ lowered w = lowered service.outside.toList := by
  rw [Service.proxied, Bool.or_eq_true] at h
  cases h with
  | inl h =>
    obtain ⟨w, tail, hpath, hw, -⟩ := (route_iff _ _).mp h
    exact ⟨w, hpath ▸ List.prefix_append w tail, hw⟩
  | inr h =>
    obtain ⟨w, hpath, hw⟩ := routeBelow_begins h
    have hlen : service.outside.toList.length ≤ w.length := by
      have := congrArg List.length hw
      simp only [lowered, List.length_map, String.toList_append, List.length_append] at this
      omega
    refine ⟨w.take service.outside.toList.length, (List.take_prefix _ w).trans hpath, ?_⟩
    have htake := congrArg (List.take service.outside.toList.length) hw
    simpa [lowered, List.map_take] using htake

private theorem routeBelow_of_slash {base : String} {handler : Handler} {w tail : List Char}
    (hw : lowered w = lowered handler.below.toList) (htail : tail = [] ∨ tail = ['/']) :
    (routeBelow base).test (base.toList ++ (w ++ tail)) = true := by
  have hline : ∀ c ∈ w, inLine c = true := by
    intro c hc
    by_contra hcross
    have hmem : c.toLower ∈ lowered handler.below.toList := hw ▸ List.mem_map_of_mem hc
    simp only [inLine, Bool.not_eq_true, Bool.not_eq_false', Bool.or_eq_true, beq_iff_eq] at hcross
    revert hmem
    rcases hcross with ((rfl | rfl) | rfl) | rfl <;> cases handler <;> decide
  cases w with
  | nil => cases handler <;> simp [lowered, Handler.below] at hw
  | cons c w =>
    have hslash : c = '/' := by
      apply Text.toLower_eq (.inl (by decide))
      have hhead := congrArg List.head? hw
      cases handler <;> simpa [lowered, Handler.below] using hhead
    have htakes := (takes_anyCase (base ++ "/")).seq
      ((takes_one inLine).star.seq (takes_literal "/").optional)
    rw [routeBelow, test_whole htakes, Language.mem_mul]
    refine ⟨base.toList ++ ['/'], mem_anyCase.mpr (by simp), w ++ tail, ?_, by simp [hslash]⟩
    rw [Language.mem_mul]
    have hrest : ∀ d ∈ w, inLine d = true := fun d hd => hline d (List.mem_cons_of_mem c hd)
    exact ⟨w, mem_kstar_single hrest, tail, mem_slash.mpr htail, rfl⟩

private theorem lowered_getElem? {w text out : List Char} (h : w <+: text) (hw : lowered w = out)
    {n : ℕ} (hn : n < out.length) : (lowered text)[n]? = out[n]? := by
  obtain ⟨v, rfl⟩ := h
  have happend : lowered (w ++ v) = out ++ lowered v := by
    rw [← hw]
    exact List.map_append
  rw [happend, List.getElem?_append_left hn]

end Spelling

namespace Handler

private theorem outside_of_receives {handler : Handler} {path : String}
    (h : handler.receives path = true) : handler.service.outside.toList <+: path.toList := by
  rw [receives, Bool.and_eq_true] at h
  obtain ⟨hproxied, hroute⟩ := h
  by_cases hbegins : (seq start (literal handler.service.outside)).test path.toList = true
  · exact (begins_iff _ _).mp hbegins
  · exfalso
    rw [Service.pathRewrite, if_neg hbegins] at hroute
    obtain ⟨u, hu, hout⟩ := proxied_begins hproxied
    obtain ⟨w, tail, hpath, hw, -⟩ := (route_iff _ _).mp hroute
    -- the third letter is that of `/api` and that of the service's own path
    have hout2 := lowered_getElem? hu hout (n := 2) (by cases handler <;> decide)
    have hin2 := lowered_getElem? (hpath ▸ List.prefix_append w tail) hw (n := 2)
      (by cases handler <;> decide)
    rw [hout2] at hin2
    revert hin2
    cases handler <;> decide

theorem receives_iff (handler : Handler) (path : String) :
    handler.receives path = true ↔
      ∃ w tail, path.toList = handler.service.outside.toList ++ (w ++ tail) ∧
        lowered w = lowered handler.below.toList ∧ (tail = [] ∨ tail = ['/']) := by
  constructor
  · intro h
    have hbegins := outside_of_receives h
    obtain ⟨rest, hrest⟩ := id hbegins
    rw [receives, Bool.and_eq_true, Service.pathRewrite, if_pos ((begins_iff _ _).mpr hbegins),
      ← hrest, ← String.length_toList, List.drop_left, String.toList_append,
      String.toList_ofList] at h
    obtain ⟨w, tail, hsplit, hw, htail⟩ := (route_iff _ _).mp h.2
    rw [Handler.path, String.toList_append, lowered, lowered, List.map_append] at hw
    have hlen : handler.service.inside.toList.length ≤ w.length := by
      have hlength := congrArg List.length hw
      simp only [List.length_map, List.length_append] at hlength
      omega
    obtain ⟨w', rfl⟩ : handler.service.inside.toList <+: w := by
      have hinside : handler.service.inside.toList <+: w ++ tail := by
        rw [← hsplit]
        exact List.prefix_append _ rest
      exact List.prefix_of_prefix_length_le hinside (List.prefix_append w tail) hlen
    rw [List.append_assoc, List.append_cancel_left_eq] at hsplit
    rw [List.map_append, List.append_cancel_left_eq] at hw
    exact ⟨w', tail, by rw [← hrest, hsplit], hw, htail⟩
  · rintro ⟨w, tail, hpath, hw, htail⟩
    have hbegins : (seq start (literal handler.service.outside)).test path.toList = true := by
      rw [begins_iff, hpath]
      exact List.prefix_append _ _
    rw [receives, Bool.and_eq_true]
    constructor
    · rw [Service.proxied, Bool.or_eq_true, hpath]
      exact Or.inr (routeBelow_of_slash hw htail)
    · rw [Service.pathRewrite, if_pos hbegins, hpath, ← String.length_toList, List.drop_left,
        String.toList_append, String.toList_ofList, route_iff]
      refine ⟨handler.service.inside.toList ++ w, tail, by simp, ?_, htail⟩
      rw [Handler.path, String.toList_append, lowered, lowered, List.map_append, List.map_append]
      exact congrArg _ hw

end Handler

section Resolve

private theorem strict_iff (handler : Handler) (path : String) :
    handler.rule.path.test path.toList = true ↔ path = handler.address := by
  cases handler <;> exact whole_iff _ path

private theorem mem_strictRules {rule : RateLimitRule} :
    rule ∈ strictRules ↔ ∃ handler : Handler, rule = handler.rule := by
  constructor
  · intro h
    simp only [strictRules, List.mem_cons, List.not_mem_nil, or_false] at h
    rcases h with rfl | rfl | rfl | rfl
    · exact ⟨.login, rfl⟩
    · exact ⟨.register, rfl⟩
    · exact ⟨.verifyMfa, rfl⟩
    · exact ⟨.chat, rfl⟩
  · rintro ⟨handler, rfl⟩
    cases handler <;> simp [strictRules, Handler.rule]

private theorem post_iff (handler : Handler) (path : String) :
    (handler.rule.method == toUpperCase "POST" && handler.rule.path.test path.toList) = true ↔
      path = handler.address := by
  have hmethod : (handler.rule.method == toUpperCase "POST") = true := by cases handler <;> decide
  rw [hmethod, Bool.true_and, strict_iff]

private theorem address_injective {h₁ h₂ : Handler} (h : h₁.address = h₂.address) : h₁ = h₂ := by
  revert h
  cases h₁ <;> cases h₂ <;> decide

theorem resolveRule_address (handler : Handler) :
    resolveRule "POST" handler.address = some handler.rule := by
  rw [resolveRule]
  cases hfind : strictRules.find? fun rule =>
      rule.method == toUpperCase "POST" && rule.path.test handler.address.toList with
  | none =>
    have hnone := List.find?_eq_none.mp hfind _ (mem_strictRules.mpr ⟨handler, rfl⟩)
    exact absurd ((post_iff handler _).mpr rfl) hnone
  | some rule =>
    obtain ⟨other, rfl⟩ := mem_strictRules.mp (List.mem_of_find?_eq_some hfind)
    have htest := List.find?_some hfind
    have haddress := (post_iff other _).mp htest
    rw [address_injective haddress]

/-- Any other path is left to the rule for everything below `/api/`. -/
theorem resolveRule_other {path : String} (h : ∀ handler : Handler, path ≠ handler.address) :
    resolveRule "POST" path =
      if "/api/".toList <+: path.toList then some defaultRule else none := by
  have hnone : (strictRules.find? fun rule =>
      rule.method == toUpperCase "POST" && rule.path.test path.toList) = none := by
    rw [List.find?_eq_none]
    intro rule hrule htest
    obtain ⟨handler, rfl⟩ := mem_strictRules.mp hrule
    exact h handler ((post_iff handler path).mp htest)
  rw [resolveRule, hnone]
  exact if_congr (begins_iff _ path) rfl rfl

private theorem receives_own {h₁ h₂ : Handler} (h : h₁.receives h₂.address = true) : h₁ = h₂ := by
  revert h
  cases h₁ <;> cases h₂ <;> decide +kernel

theorem strict_limit_iff (handler : Handler) (path : String) (h : handler.receives path = true) :
    (resolveRule "POST" path = some handler.rule ↔ path = handler.address) ∧
      (path ≠ handler.address → resolveRule "POST" path = some defaultRule) := by
  have hother : path ≠ handler.address → resolveRule "POST" path = some defaultRule := by
    intro hne
    have hnone : ∀ other : Handler, path ≠ other.address := by
      rintro other rfl
      rw [receives_own h] at hne
      exact hne rfl
    obtain ⟨w, tail, hpath, -⟩ := (handler.receives_iff path).mp h
    have hapi : "/api/".toList <+: path.toList := by
      rw [hpath]
      have hbase : "/api/".toList <+: handler.service.outside.toList := by cases handler <;> decide
      exact hbase.trans (List.prefix_append _ _)
    rw [resolveRule_other hnone, if_pos hapi]
  refine ⟨⟨?_, ?_⟩, hother⟩
  · intro hrule
    by_contra hne
    rw [hother hne] at hrule
    have hname := congrArg (Option.map RateLimitRule.name) hrule
    revert hname
    cases handler <;> decide
  · rintro rfl
    exact resolveRule_address handler

theorem strict_limit_iff_login :
    Handler.login.receives "/api/auth/login" = true ∧
      (resolveRule "POST" "/api/auth/login" = some authLogin ↔
        "/api/auth/login" = Handler.login.address) := by
  have hreceives : Handler.login.receives "/api/auth/login" = true := by decide +kernel
  exact ⟨hreceives, (strict_limit_iff .login "/api/auth/login" hreceives).1⟩

/-- With a capital letter or a slash at the end the password is checked all the same, and sixty
times a minute instead of ten. -/
theorem spelled_login_default :
    Handler.login.receives "/api/auth/Login" = true ∧
      Handler.login.receives "/api/auth/login/" = true ∧
      (resolveRule "POST" "/api/auth/Login").map RateLimitRule.name = some "default" ∧
      (resolveRule "POST" "/api/auth/login/").map RateLimitRule.limit = some 60 ∧
      ¬ ∀ path, Handler.login.receives path = true → resolveRule "POST" path = some authLogin := by
  have hreceives : Handler.login.receives "/api/auth/Login" = true := by decide +kernel
  have hname : (resolveRule "POST" "/api/auth/Login").map RateLimitRule.name = some "default" := by
    decide +kernel
  refine ⟨hreceives, by decide +kernel, hname, by decide +kernel, ?_⟩
  intro hall
  rw [hall _ hreceives] at hname
  revert hname
  decide

end Resolve

end CloudVM.Limits
