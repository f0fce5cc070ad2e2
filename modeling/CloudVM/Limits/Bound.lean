import CloudVM.Framework.Windows
import CloudVM.Limits.Counters

/-!
# What a limit lets through

A counter lives from its first `INCR` until it expires, at least as long as the window of its rule,
however late the `EXPIRE` comes. So the lives of a counter are windows, and of the requests of one
address at most two limits pass in an interval of that length.
-/

namespace CloudVM.Limits

open Process

section Answers

/-- The answer of `TTL`, in seconds: rounded to the nearest one, `-1` without an expiry, `-2`
without an entry. -/
def secondsLeft (s : CounterStore) (key : CounterKey) : ℤ :=
  match s.live key, s.entries key with
  | none, _ => -2
  | some _, some (_, some expiresAt) => ((expiresAt - s.clock + 500) / 1000 : ℕ)
  | some _, _ => -1

/-- The command works, and `TTL` tells the truth. -/
def GatewayCall.Works (s : CounterStore) : (c : GatewayCall) → c.Answer → Prop
  | .connect, r => r = .ok ()
  | .incr _, r => ∃ n, r = .ok n
  | .expire _ _, r => r = .ok ()
  | .pexpire _ _, r => r = .ok ()
  | .ttl key, r => r = .ok (secondsLeft s (.gateway key))
  | .pttl _, r => ∃ n, r = .ok n

def CounterCall.Works (s : CounterStore) : (c : CounterCall) → c.Answer → Prop
  | .gateway c => c.Works s
  | .auth _ => fun _ => True

/-- Requests of any kind in any order, with a Redis that answers the gateway. -/
def workingServer (env : CounterEnv) :
    Server counterInterface Failure (LimitReply ⊕ AuthReply) CounterRequest CounterStore where
  handler := CounterRequest.handle env
  effect := fun _ _ c s r s' => counterEffect c s r s' ∧ c.Works s r
  change := (counterServer env).change

theorem workingServer_run {env : CounterEnv} {x y : CounterStage} {trace : CounterTrace}
    (h : Run (workingServer env).Step x trace y) : Run (counterServer env).Step x trace y := by
  apply h.mono
  intro t l u hs
  cases hs with
  | begin q => exact .begin q
  | act ht he => exact .act ht he.1
  | crash e ht hl => exact .crash e ht hl
  | change hc => exact .change hc

end Answers

section Keys

/-- All rules, the one for everything else first. -/
def rules : List RateLimitRule := defaultRule :: strictRules

theorem resolveRule_mem {method path : String} {rule : RateLimitRule}
    (h : resolveRule method path = some rule) : rule ∈ rules := by
  simp only [resolveRule] at h
  split at h
  · rename_i selected hfind
    cases h
    exact List.mem_cons_of_mem _ (List.mem_of_find?_eq_some hfind)
  · split at h
    · cases h
      exact List.mem_cons_self
    · cases h

theorem windowSeconds_eq {rule : RateLimitRule} (h : rule ∈ rules) : rule.windowSeconds = 60 := by
  simp only [rules, strictRules, List.mem_cons, List.not_mem_nil, or_false] at h
  rcases h with rfl | rfl | rfl | rfl | rfl <;> rfl

private theorem rateLimitKey_toList (name ip : String) :
    (rateLimitKey name ip).toList =
      "security:gateway:ratelimit:".toList ++ (name.toList ++ (":".toList ++ ip.toList)) := by
  have hkey : rateLimitKey name ip = "security:gateway:ratelimit:" ++ name ++ ":" ++ ip := rfl
  rw [hkey, String.toList_append, String.toList_append, String.toList_append, List.append_assoc,
    List.append_assoc]

theorem rateLimitKey_ne_throttler (name ip key : String) :
    rateLimitKey name ip ≠ s!"security:gateway:throttler:{key}" := by
  intro h
  have hkey : s!"security:gateway:throttler:{key}" = "security:gateway:throttler:" ++ key := rfl
  have hlist := congrArg (fun s : String => s.toList.take 18) h
  simp only [hkey, rateLimitKey_toList, String.toList_append] at hlist
  rw [List.take_append_of_le_length (by decide), List.take_append_of_le_length (by decide)] at hlist
  revert hlist
  decide

theorem rateLimitKey_ne_terminal {rule : RateLimitRule} (h : rule ∈ rules) (ip ip' : String) :
    rateLimitKey rule.name ip ≠ rateLimitKey "ws-terminal" ip' := by
  intro heq
  have hlist := congrArg String.toList heq
  rw [rateLimitKey_toList, rateLimitKey_toList, List.append_cancel_left_eq] at hlist
  have hfirst := congrArg (List.take 1) hlist
  have hlen : 1 ≤ "ws-terminal".toList.length := by decide
  simp only [rules, strictRules, List.mem_cons, List.not_mem_nil, or_false] at h
  rw [List.take_append_of_le_length hlen] at hfirst
  rcases h with rfl | rfl | rfl | rfl | rfl
  all_goals
    rw [List.take_append_of_le_length (by decide)] at hfirst
    revert hfirst
    decide

end Keys

section Calls

variable {key : String} {seconds : ℕ} {α : Type}

def Respects (key : String) (seconds : ℕ) : CounterCall → Prop
  | .gateway (.expire k n) => k = key → n = seconds
  | .gateway (.pexpire k _) => k ≠ key
  | _ => True

private theorem only_ofGateway {p : GatewayProcess α}
    (h : p.Only fun c => Respects key seconds (.gateway c)) :
    (ofGateway p).Only (Respects key seconds) := only_lift h

private theorem only_ofAuth (p : AuthProcess α) : (ofAuth p).Only (Respects key seconds) := by
  have hall : p.Only fun c => Respects key seconds (.auth c) := by
    induction p with
    | ret a => trivial
    | raise e => trivial
    | call c k ih => exact ⟨trivial, fun r => ih r⟩
  exact only_lift hall

private theorem only_countHit {k : String} {window : GatewayProcess Unit}
    (h : window.Only fun c => Respects key seconds (.gateway c)) :
    (countHit k window).Only fun c => Respects key seconds (.gateway c) := by
  apply only_bind (only_request trivial)
  intro currentHits
  split
  · exact only_bind h fun _ => trivial
  · trivial

variable {rule : RateLimitRule}

private theorem use_respects (env : GatewayEnv) (hrule : rule ∈ rules) (ip : String)
    (req : HttpRequest) : (use env req).Only fun c =>
      Respects (rateLimitKey rule.name ip) rule.windowSeconds (.gateway c) := by
  unfold use
  split
  · trivial
  · rename_i rule' hresolve
    have hseconds := windowSeconds_eq hrule
    have hseconds' := windowSeconds_eq (resolveRule_mem hresolve)
    apply only_tryCatch
    · apply only_bind (only_request trivial)
      intro _
      apply only_bind
      · apply only_countHit
        apply only_request
        intro _
        rw [hseconds, hseconds']
      · intro currentHits
        split
        · exact only_bind (only_request trivial) fun _ => trivial
        · trivial
    · intro e
      split <;> trivial

private theorem increment_respects (ip key : String) (ttl limit : ℕ) :
    (increment key ttl limit).Only fun c =>
      Respects (rateLimitKey rule.name ip) rule.windowSeconds (.gateway c) := by
  apply only_tryCatch
  · apply only_bind (only_request trivial)
    intro _
    apply only_bind
    · apply only_countHit
      apply only_request
      exact (rateLimitKey_ne_throttler rule.name ip key).symm
    · intro totalHits
      exact only_bind (only_request trivial) fun _ => trivial
  · intro e
    trivial

private theorem terminal_respects (env : GatewayEnv) (hrule : rule ∈ rules) (ip : String)
    (realIp : Option Access.HeaderValue) : (checkTerminalWsRateLimit env realIp).Only fun c =>
      Respects (rateLimitKey rule.name ip) rule.windowSeconds (.gateway c) := by
  simp only [checkTerminalWsRateLimit]
  split
  · trivial
  · apply only_tryCatch
    · apply only_bind
      · apply only_countHit
        apply only_request
        intro heq
        exact absurd heq.symm (rateLimitKey_ne_terminal hrule ip _)
      · intro currentHits
        split
        · exact only_bind (only_request trivial) fun _ => trivial
        · trivial
    · intro e
      trivial

/-- No request touches the expiry of a rule's counter but the limiter of that rule. -/
theorem handle_respects (env : CounterEnv) (hrule : rule ∈ rules) (ip : String)
    (q : CounterRequest) :
    (q.handle env).Only (Respects (rateLimitKey rule.name ip) rule.windowSeconds) := by
  cases q with
  | http req => exact only_bind (only_ofGateway (use_respects _ hrule ip req)) fun _ => trivial
  | throttle key ttl limit =>
    exact only_bind (only_ofGateway (increment_respects ip key ttl limit)) fun _ => trivial
  | terminalUpgrade realIp =>
    exact only_bind (only_ofGateway (terminal_respects _ hrule ip realIp)) fun _ => trivial
  | login dto req => exact only_bind (only_ofAuth _) fun _ => trivial
  | verifyAdminMfa challengeId code req => exact only_bind (only_ofAuth _) fun _ => trivial

end Calls

section Lives

/-- A window is the life of a counter: it opens with the first `INCR`, and the entry is there for
`seconds` at least, and no longer than that from now on. -/
structure Life (key : CounterKey) (seconds : ℕ) (w : Option Window) (s : CounterStore) : Prop where
  entry : ∀ v deadline, s.entries key = some (v, deadline) → ∃ life, w = some life ∧
    v = .counter life.used ∧ life.start ≤ s.clock ∧
      ∀ expiresAt, deadline = some expiresAt →
        life.start + 1000 * seconds ≤ expiresAt ∧ expiresAt ≤ s.clock + 1000 * seconds
  gone : s.entries key = none → ∀ life, w = some life → life.start + 1000 * seconds ≤ s.clock

variable {key : CounterKey} {seconds : ℕ} {w : Option Window} {s s' : CounterStore}

theorem Life.over (h : Life key seconds w s) (hlive : s.live key = none) {life : Window}
    (hw : w = some life) : life.start + 1000 * seconds ≤ s.clock := by
  cases hentry : s.entries key with
  | none => exact h.gone hentry life hw
  | some e =>
    obtain ⟨v, deadline⟩ := e
    obtain ⟨life', hw', -, -, hdeadline⟩ := h.entry v deadline hentry
    obtain rfl := Option.some.inj (hw'.symm.trans hw)
    cases deadline with
    | none => simp [Cache.live, hentry] at hlive
    | some expiresAt =>
      have hexpired : ¬ s.clock < expiresAt := by
        intro hlt
        simp [Cache.live, hentry, hlt] at hlive
      have hle := (hdeadline expiresAt rfl).1
      omega

theorem Life.counter (h : Life key seconds w s) {v : RedisValue} (hlive : s.live key = some v) :
    ∃ life deadline, w = some life ∧ s.entries key = some (.counter life.used, deadline) ∧
      v = .counter life.used := by
  obtain ⟨deadline, hentry⟩ := Cache.entry_of_live hlive
  obtain ⟨life, hw, rfl, -⟩ := h.entry v deadline hentry
  exact ⟨life, deadline, hw, hentry, rfl⟩

theorem Life.elsewhere (h : Life key seconds w s) (hentry : s'.entries key = s.entries key)
    (hclock : s.clock ≤ s'.clock) : Life key seconds w s' := by
  constructor
  · intro v deadline hv
    rw [hentry] at hv
    obtain ⟨life, hw, hcount, hstart, hdeadline⟩ := h.entry v deadline hv
    refine ⟨life, hw, hcount, by omega, ?_⟩
    intro expiresAt hexpires
    have hbounds := hdeadline expiresAt hexpires
    omega
  · intro hnone life hw
    rw [hentry] at hnone
    have hover := h.gone hnone life hw
    omega

/-- `EXPIRE` gives the counter at least the time it still had to live. -/
theorem Life.expire (h : Life key seconds w s) :
    Life key seconds w (s.expire key (1000 * seconds)) := by
  constructor
  · intro v deadline hv
    cases hlive : s.live key with
    | none => simp [Cache.expire, Cache.write, hlive] at hv
    | some u =>
      obtain ⟨life, old, hw, hentry, hcount⟩ := h.counter hlive
      obtain ⟨life', hw', -, hstart, -⟩ := h.entry _ _ hentry
      obtain rfl := Option.some.inj (hw'.symm.trans hw)
      simp only [Cache.expire, Cache.write, hlive, if_true, Option.map_some, Option.some.injEq,
        Prod.mk.injEq] at hv
      obtain ⟨rfl, rfl⟩ := hv
      refine ⟨life', hw, hcount, hstart, ?_⟩
      intro expiresAt hexpires
      cases hexpires
      simp only [Cache.expire, Cache.write]
      omega
  · intro hnone life hw
    cases hlive : s.live key with
    | none => exact h.over hlive hw
    | some u => simp [Cache.expire, Cache.write, hlive] at hnone

theorem Life.incr (h : Life key seconds w s) (limit : ℕ) :
    ∃ w', Window.Step (1000 * seconds) limit w
        ⟨s.clock, s.clock, if count s key + 1 ≤ limit then 1 else 0⟩ w' ∧
      Life key seconds w' (s.update key incremented) := by
  have hone : (if count s key + 1 ≤ limit then 1 else 0) ≤ 1 := by split <;> omega
  have hfits : (if count s key + 1 ≤ limit then 1 else 0) ≠ 0 → count s key + 1 ≤ limit := by
    intro hne
    by_contra hover
    rw [if_neg hover] at hne
    exact hne rfl
  cases hlive : s.live key with
  | none =>
    have hcount : count s key = 0 := by simp [count, hlive]
    refine ⟨some ⟨s.clock, 1⟩, .opened 1 hone ?_ ?_, ?_, ?_⟩
    · rw [hcount] at hfits ⊢
      exact hfits
    · intro life hw
      exact h.over hlive hw
    · intro v deadline hv
      simp only [Cache.update, Cache.write, if_true, hlive, Option.bind_none, incremented,
        Option.some.injEq, Prod.mk.injEq] at hv
      obtain ⟨rfl, rfl⟩ := hv
      exact ⟨_, rfl, rfl, le_rfl, by simp⟩
    · intro hnone
      simp [Cache.update, Cache.write] at hnone
  | some v =>
    obtain ⟨life, deadline, rfl, hentry, rfl⟩ := h.counter hlive
    have hcount : count s key = life.used := by simp [count, hlive]
    obtain ⟨life', hw', -, hstart, hdeadline⟩ := h.entry _ _ hentry
    obtain rfl := Option.some.inj hw'
    refine ⟨some ⟨life.start, life.used + 1⟩, .joined 1 hone ?_, ?_, ?_⟩
    · rw [hcount] at hfits ⊢
      exact hfits
    · intro v deadline' hv
      simp only [Cache.update, Cache.write, if_true, hlive, hentry, Option.bind_some, incremented,
        Option.some.injEq, Prod.mk.injEq] at hv
      obtain ⟨rfl, rfl⟩ := hv
      exact ⟨_, rfl, rfl, hstart, hdeadline⟩
    · intro hnone
      simp [Cache.update, Cache.write] at hnone

end Lives

section Trace

variable {env : CounterEnv} {key : String} {seconds : ℕ}

/-- An `INCR` of the counter as a request to its window. -/
def passage (key : String) (limit : ℕ) :
    StageLabel counterInterface CounterRequest × CounterStage → Option Passage
  | (.act _ (.gateway (.incr k)) (.ok n), z) =>
      if k = key then some ⟨z.state.clock, z.state.clock, if n ≤ limit then 1 else 0⟩ else none
  | _ => none

/-- The task whose `INCR` got it a place in the interval. -/
def passer (key : String) (limit a length : ℕ) :
    StageLabel counterInterface CounterRequest × CounterStage → Option ℕ
  | (.act i (.gateway (.incr k)) (.ok n), z) =>
      if k = key ∧ n ≤ limit ∧ a ≤ z.state.clock ∧ z.state.clock < a + length then some i else none
  | _ => none

private theorem passer_length (key : String) (limit a length : ℕ)
    (e : StageLabel counterInterface CounterRequest × CounterStage) :
    (passer key limit a length e).toList.length =
      ((passage key limit e).map (Window.counted a length)).getD 0 := by
  obtain ⟨l, z⟩ := e
  cases l with
  | begin q => rfl
  | crash => rfl
  | change => rfl
  | act i c r =>
    cases c with
    | auth c => rfl
    | gateway c =>
      cases c with
      | connect => rfl
      | expire k n => rfl
      | pexpire k n => rfl
      | ttl k => rfl
      | pttl k => rfl
      | incr k =>
        cases r with
        | error e => rfl
        | ok n =>
          simp only [passer, passage]
          by_cases hk : k = key
          · by_cases hn : n ≤ limit
            · by_cases hin : a ≤ z.state.clock ∧ z.state.clock < a + length
              · have hin' : (a : ℤ) ≤ z.state.clock ∧ (z.state.clock : ℤ) < a + length := by omega
                simp [hk, hn, hin, hin', Window.counted]
              · simp [hk, hn, hin, Window.counted]
                omega
            · simp [hk, hn, Window.counted]
          · simp [hk]

private theorem passers_length (key : String) (limit a length : ℕ) (trace : CounterTrace) :
    (trace.filterMap (passer key limit a length)).length =
      ((trace.filterMap (passage key limit)).map (Window.counted a length)).sum := by
  induction trace with
  | nil => rfl
  | cons e trace ih =>
    have hfirst := passer_length key limit a length e
    rw [List.filterMap_cons, List.filterMap_cons]
    cases hpasser : passer key limit a length e with
    | none =>
      cases hpassage : passage key limit e with
      | none => exact ih
      | some p =>
        simp only [hpasser, hpassage, Option.toList_none, List.length_nil, Option.map_some,
          Option.getD_some] at hfirst
        simp [ih, ← hfirst]
    | some i =>
      cases hpassage : passage key limit e with
      | none => simp [hpasser, hpassage] at hfirst
      | some p =>
        simp only [hpasser, hpassage, Option.toList_some, List.length_singleton, Option.map_some,
          Option.getD_some] at hfirst
        simp only [List.length_cons, List.map_cons, List.sum_cons, ih, ← hfirst]
        omega

private theorem authEffect_elsewhere (key : String) {c : AuthCall} {s s' : CounterStore} {r : c.Answer}
    (h : authEffect c s r s') :
    s'.entries (.gateway key) = s.entries (.gateway key) ∧ s'.clock = s.clock := by
  have hconfirms : ∀ {β : Type} {b : β} {t : CounterStore} {r : Except Failure β},
      s.Confirms b t r s' →
      t.entries (.gateway key) = s.entries (.gateway key) ∧ t.clock = s.clock →
      s'.entries (.gateway key) = s.entries (.gateway key) ∧ s'.clock = s.clock := by
    intro β b t r hc ht
    rcases hc with ⟨-, rfl⟩ | ⟨-, rfl | rfl⟩
    · exact ht
    · exact ⟨rfl, rfl⟩
    · exact ht
  cases c with
  | redisGet k => exact h.1 ▸ ⟨rfl, rfl⟩
  | redisSet k v ttl => exact hconfirms h ⟨by simp [Cache.write], rfl⟩
  | redisDel keys => exact hconfirms h ⟨by simp [Cache.del], rfl⟩
  | redisIncr k => exact hconfirms h ⟨by simp [Cache.update, Cache.write], rfl⟩
  | redisExpire k ttl => exact hconfirms h ⟨by simp [Cache.expire, Cache.write], rfl⟩
  | _ => exact (show s' = s from h) ▸ ⟨rfl, rfl⟩

private theorem gateway_step (limit i : ℕ) {c : GatewayCall} {s s' : CounterStore} {r : c.Answer}
    {w : Option Window} {tasks : List (Task counterInterface Failure (LimitReply ⊕ AuthReply) CounterRequest)}
    (he : gatewayEffect c s r s') (hr : c.Works s r) (hc : Respects key seconds (.gateway c))
    (h : Life (.gateway key) seconds w s) :
    (passage key limit (.act i (.gateway c) r, ⟨s', tasks⟩) = none ∧
        Life (.gateway key) seconds w s' ∧ s'.clock = s.clock) ∨
      ∃ e w', passage key limit (.act i (.gateway c) r, ⟨s', tasks⟩) = some e ∧
        e.checked = s.clock ∧ e.done = s'.clock ∧ s'.clock = s.clock ∧
        Window.Step (1000 * seconds) limit w e w' ∧ Life (.gateway key) seconds w' s' := by
  cases c with
  | connect | ttl k | pttl k =>
    obtain rfl : s' = s := he
    exact .inl ⟨rfl, h, rfl⟩
  | expire k n =>
    obtain rfl : r = .ok () := hr
    rcases he with ⟨-, rfl⟩ | ⟨⟨e, herror⟩, -⟩
    · left
      refine ⟨rfl, ?_, rfl⟩
      by_cases hk : k = key
      · obtain rfl : n = seconds := hc hk
        rw [hk]
        exact h.expire
      · refine h.elsewhere ?_ le_rfl
        simp [Cache.expire, Cache.write, Ne.symm hk]
    · cases herror
  | pexpire k n =>
    obtain rfl : r = .ok () := hr
    rcases he with ⟨-, rfl⟩ | ⟨⟨e, herror⟩, -⟩
    · left
      refine ⟨rfl, h.elsewhere ?_ le_rfl, rfl⟩
      have hk : k ≠ key := hc
      simp [Cache.expire, Cache.write, Ne.symm hk]
    · cases herror
  | incr k =>
    obtain ⟨n, rfl⟩ := hr
    rcases he with ⟨hn, rfl⟩ | ⟨⟨e, herror⟩, -⟩
    · cases hn
      by_cases hk : k = key
      · right
        subst hk
        obtain ⟨w', hstep, hlife⟩ := h.incr limit
        exact ⟨_, w', if_pos rfl, rfl, rfl, rfl, hstep, hlife⟩
      · left
        refine ⟨if_neg hk, h.elsewhere ?_ le_rfl, rfl⟩
        simp [Cache.update, Cache.write, Ne.symm hk]
    · cases herror

private theorem life_step (limit : ℕ) {x y : CounterStage}
    {l : StageLabel counterInterface CounterRequest} {w : Option Window}
    (hs : (workingServer env).Step x l y)
    (hx : ∀ task ∈ x.tasks, task.rest.Only (Respects key seconds))
    (h : Life (.gateway key) seconds w x.state) :
    (passage key limit (l, y) = none ∧ Life (.gateway key) seconds w y.state ∧
        x.state.clock ≤ y.state.clock) ∨
      ∃ e w', passage key limit (l, y) = some e ∧ e.checked = x.state.clock ∧
        e.done = y.state.clock ∧ y.state.clock = x.state.clock ∧
        Window.Step (1000 * seconds) limit w e w' ∧ Life (.gateway key) seconds w' y.state := by
  cases hs with
  | begin q => exact .inl ⟨rfl, h, le_rfl⟩
  | crash e ht hl => exact .inl ⟨rfl, h, le_rfl⟩
  | change hc =>
    obtain ⟨hentries, hclock⟩ := hc
    exact .inl ⟨rfl, h.elsewhere (by rw [hentries]) hclock, hclock⟩
  | @act s s' tasks i q log c k r ht he =>
    cases c with
    | auth c =>
      obtain ⟨hentry, hclock⟩ := authEffect_elsewhere key he.1
      exact .inl ⟨rfl, h.elsewhere hentry hclock.ge, hclock.ge⟩
    | gateway c =>
      have hrespects := (hx _ (List.mem_of_getElem? ht)).1
      rcases gateway_step limit i he.1 he.2 hrespects h with
        ⟨hnone, hlife, hclock⟩ | hmore
      · exact .inl ⟨hnone, hlife, hclock.ge⟩
      · exact .inr hmore

/-- What no step takes away from the tasks. -/
private theorem respects_step {rule : RateLimitRule} (hrule : rule ∈ rules) (ip : String)
    (x : CounterStage) (l : StageLabel counterInterface CounterRequest) (y : CounterStage)
    (hx : ∀ task ∈ x.tasks, task.rest.Only (Respects (rateLimitKey rule.name ip) rule.windowSeconds))
    (h : (workingServer env).Step x l y) :
    ∀ task ∈ y.tasks, task.rest.Only (Respects (rateLimitKey rule.name ip) rule.windowSeconds) := by
  cases h with
  | begin q =>
    intro task hm
    rcases List.mem_append.mp hm with hm | hm
    · exact hx task hm
    · obtain rfl := List.mem_singleton.mp hm
      exact handle_respects env hrule ip q
  | act ht he =>
    intro task hm
    rcases mem_set_cases hm with rfl | ⟨j, -, hj⟩
    · exact (hx _ (List.mem_of_getElem? ht)).2 _
    · exact hx task (List.mem_of_getElem? hj)
  | crash e ht hl =>
    intro task hm
    rcases mem_set_cases hm with rfl | ⟨j, -, hj⟩
    · trivial
    · exact hx task (List.mem_of_getElem? hj)
  | change hc => exact hx

private theorem run_steps {rule : RateLimitRule} (hrule : rule ∈ rules) (ip : String)
    {x y : CounterStage} {trace : CounterTrace} {w : Option Window}
    (h : Run (workingServer env).Step x trace y)
    (hx : ∀ task ∈ x.tasks, task.rest.Only (Respects (rateLimitKey rule.name ip) rule.windowSeconds))
    (hlife : Life (.gateway (rateLimitKey rule.name ip)) rule.windowSeconds w x.state) :
    Window.Steps (1000 * rule.windowSeconds) rule.limit w x.state.clock
      (trace.filterMap (passage (rateLimitKey rule.name ip) rule.limit)) := by
  induction trace generalizing x w with
  | nil => trivial
  | cons e trace ih =>
    obtain ⟨l, z⟩ := e
    obtain ⟨hfirst, hrest⟩ := h.uncons
    have hz := respects_step hrule ip x l z hx hfirst
    rw [List.filterMap_cons]
    rcases life_step rule.limit hfirst hx hlife with
      ⟨hnone, hnext, hclock⟩ | ⟨p, w', hsome, hchecked, hdone, hclock, hstep, hnext⟩
    · rw [hnone]
      have hsteps := ih hrest hz hnext
      exact hsteps.earlier (by omega)
    · rw [hsome]
      have hsteps := ih hrest hz hnext
      refine ⟨by omega, by omega, w', hstep, ?_⟩
      rw [hdone]
      exact hsteps

end Trace

section Outcomes

def gatewayLog (log : List (Event counterInterface)) : List (Event gatewayInterface) :=
  log.filterMap fun
    | ⟨.gateway c, r⟩ => some ⟨c, r⟩
    | ⟨.auth _, _⟩ => none

def Answered : (c : GatewayCall) → c.Answer → Prop
  | .connect, r => r = .ok ()
  | .incr _, r => ∃ n, r = .ok n
  | .expire _ _, r => r = .ok ()
  | .pexpire _ _, r => r = .ok ()
  | .ttl _, r => ∃ n, r = .ok n
  | .pttl _, r => ∃ n, r = .ok n

/-- The outcome of `use` by its log: the request was counted, and the count is at most the limit,
or `TTL` was asked. -/
def Judged (req : HttpRequest) (reply : LimitReply) (log : List (Event gatewayInterface)) : Prop :=
  ∀ rule, resolveRule req.method req.path = some rule →
    (reply = .next ∧
      (∃ n, ⟨.incr (rateLimitKey rule.name (getClientIp req)), .ok n⟩ ∈ log) ∧
      ∀ n, ⟨.incr (rateLimitKey rule.name (getClientIp req)), .ok n⟩ ∈ log → n ≤ rule.limit) ∨
    ∃ left, reply = .tooManyRequests (max 1 left) ∧
      ⟨.ttl (rateLimitKey rule.name (getClientIp req)), .ok left⟩ ∈ log

/-- With the count in its log the limiter comes to its judgement. -/
private theorem judge {req : HttpRequest} {rule : RateLimitRule}
    (hrule : resolveRule req.method req.path = some rule) {n : ℕ}
    {log : List (Event gatewayInterface)}
    (hcounted : ⟨.incr (rateLimitKey rule.name (getClientIp req)), .ok n⟩ ∈ log)
    (hlog : ∀ m, ⟨.incr (rateLimitKey rule.name (getClientIp req)), .ok m⟩ ∈ log → m = n)
    {Q : Except Failure LimitReply → List (Event gatewayInterface) → Prop}
    (hQ : ∀ reply t, Judged req reply t → Q (.ok reply) t) :
    (if rule.limit < n then do
        let left ← ttl (rateLimitKey rule.name (getClientIp req))
        pure (.tooManyRequests (max 1 left))
      else pure .next : GatewayProcess LimitReply).Wp (fun _ _ => True) (logged Answered) Q log := by
  by_cases hover : rule.limit < n
  · rw [if_pos hover]
    refine ⟨trivial, ?_⟩
    rintro r t ⟨⟨left, rfl⟩, rfl⟩
    apply hQ
    intro rule' hrule'
    cases hrule.symm.trans hrule'
    exact .inr ⟨left, rfl, by simp⟩
  · rw [if_neg hover]
    apply hQ
    intro rule' hrule'
    cases hrule.symm.trans hrule'
    left
    refine ⟨rfl, ⟨n, hcounted⟩, ?_⟩
    intro m hm
    rw [hlog m hm]
    omega

theorem use_judged (env : GatewayEnv) (req : HttpRequest) :
    (use env req).Wp (fun _ _ => True) (logged Answered) (Post (Judged req) fun _ _ => False) [] := by
  unfold use
  split
  · rename_i hnone
    intro rule hrule
    cases hnone.symm.trans hrule
  · rename_i rule hrule
    simp only [countHit, connect, incr, expire, wp_tryCatch, wp_bind]
    refine ⟨trivial, ?_⟩
    rintro r log ⟨hr, rfl⟩
    obtain rfl : r = .ok () := hr
    refine ⟨trivial, ?_⟩
    rintro r log ⟨⟨n, rfl⟩, rfl⟩
    simp only [post_ok, wp_ofExcept]
    by_cases hfirst : n = 1
    · rw [if_pos hfirst]
      refine ⟨trivial, ?_⟩
      rintro r log ⟨hr, rfl⟩
      obtain rfl : r = .ok () := hr
      exact judge hrule (by simp) (by simp) fun _ _ h => h
    · rw [if_neg hfirst]
      exact judge hrule (by simp) (by simp) fun _ _ h => h

def fits : (c : CounterCall) → c.Answer → Prop
  | .gateway c => Answered c
  | .auth _ => fun _ => True

private theorem http_judged (env : CounterEnv) (req : HttpRequest) :
    ((CounterRequest.http req).handle env).Wp (fun _ _ => True) (logged fits)
      (Post (fun out log => ∃ reply, out = .inl reply ∧ Judged req reply (gatewayLog log))
        fun _ _ => False) [] := by
  have hstep : ∀ (t : List (Event counterInterface)) (c : GatewayCall) (r : c.Answer)
      (t' : List (Event counterInterface)), @logged counterInterface fits (.gateway c) t r t' →
      @logged gatewayInterface Answered c (gatewayLog t) r (gatewayLog t') := by
    rintro t c r t' ⟨hr, rfl⟩
    refine ⟨hr, ?_⟩
    rw [gatewayLog, List.filterMap_append]
    rfl
  have hbody : (use env.gateway req).Wp (fun _ _ => True) (logged Answered)
      (Post (Judged req) fun _ _ => False) (gatewayLog []) := use_judged env.gateway req
  rw [CounterRequest.handle, wp_bind]
  refine (Wp.lift gatewayLog (fun _ _ _ => trivial) hstep hbody).mono ?_
  intro out log hout
  cases out with
  | ok reply => exact ⟨reply, rfl, hout⟩
  | error e => exact hout

/-- A task that will come to its judgement, or whose gateway has stopped. -/
def Decides (stopped : Prop) (task : Task counterInterface Failure (LimitReply ⊕ AuthReply)
    CounterRequest) : Prop :=
  ∀ req, task.request = .http req → (stopped ∧ ∃ e, task.rest = .raise e) ∨
    task.rest.Wp (fun _ _ => True) (logged fits)
      (Post (fun out log => ∃ reply, out = .inl reply ∧ Judged req reply (gatewayLog log))
        fun _ _ => False) task.log

private theorem fits_of_works {c : CounterCall} {s : CounterStore} {r : c.Answer}
    (h : c.Works s r) : fits c r := by
  cases c with
  | auth c => trivial
  | gateway c =>
    cases c with
    | ttl key => exact ⟨_, h⟩
    | _ => exact h

private theorem run_decides {env : CounterEnv} {s : CounterStore} {y : CounterStage}
    {trace : CounterTrace} (h : Run (workingServer env).Step ⟨s, []⟩ trace y) :
    ∀ task ∈ y.tasks, Decides (∃ e ∈ trace, e.1 = .crash) task := by
  induction h with
  | nil => simp
  | @snoc trace x y l hr hs ih =>
    have hold : ∀ task ∈ x.tasks, Decides (∃ e ∈ trace ++ [(l, y)], e.1 = .crash) task := by
      intro task hm req hreq
      cases ih task hm req hreq with
      | inl hstopped =>
        obtain ⟨⟨e, he, hcrash⟩, hraise⟩ := hstopped
        exact .inl ⟨⟨e, List.mem_append_left _ he, hcrash⟩, hraise⟩
      | inr hwp => exact .inr hwp
    cases hs with
    | begin q =>
      intro task hm
      rcases List.mem_append.mp hm with hm | hm
      · exact hold task hm
      · obtain rfl := List.mem_singleton.mp hm
        intro req hreq
        obtain rfl : q = .http req := hreq
        exact .inr (http_judged env req)
    | @act s s' tasks i q log c k r ht he =>
      intro task hm
      rcases mem_set_cases hm with rfl | ⟨j, -, hj⟩
      · intro req hreq
        right
        cases hold _ (List.mem_of_getElem? ht) req hreq with
        | inl hstopped =>
          obtain ⟨-, e, hraise⟩ := hstopped
          cases hraise
        | inr hwp => exact hwp.2 r _ ⟨fits_of_works he.2, rfl⟩
      · exact hold task (List.mem_of_getElem? hj)
    | @crash s tasks i other e ht hl =>
      intro task hm
      rcases mem_set_cases hm with rfl | ⟨j, -, hj⟩
      · intro req hreq
        exact .inl ⟨⟨_, List.mem_append_right _ (List.mem_singleton.mpr rfl), rfl⟩, e, rfl⟩
      · exact hold task (List.mem_of_getElem? hj)
    | change hc => exact hold

end Outcomes

section Bound

variable {env : CounterEnv} {rule : RateLimitRule} {ip : String} {s : CounterStore}
  {trace : CounterTrace} {y : CounterStage}

/-- The request falls under the rule, with this address. -/
def Falls (rule : RateLimitRule) (ip : String) : CounterRequest → Prop
  | .http req => resolveRule req.method req.path = some rule ∧ getClientIp req = ip
  | _ => False

theorem Falls.http {q : CounterRequest} (h : Falls rule ip q) :
    ∃ req, q = .http req ∧ resolveRule req.method req.path = some rule ∧ getClientIp req = ip := by
  cases q with
  | http req => exact ⟨req, rfl, h⟩
  | throttle key ttl limit => exact h.elim
  | terminalUpgrade realIp => exact h.elim
  | login dto req => exact h.elim
  | verifyAdminMfa challengeId code req => exact h.elim

def PassedOn (rule : RateLimitRule) (ip : String) (y : CounterStage) (i : ℕ) : Prop :=
  ∃ task, y.tasks[i]? = some task ∧ Falls rule ip task.request ∧ task.rest = .ret (.inl .next)

/-- The `INCR` of the request took place in the interval, in milliseconds. -/
def CountedIn (rule : RateLimitRule) (ip : String) (trace : CounterTrace) (a : ℕ) (i : ℕ) : Prop :=
  ∃ r z, (.act i (.gateway (.incr (rateLimitKey rule.name ip))) r, z) ∈ trace ∧
    a ≤ z.state.clock ∧ z.state.clock < a + 1000 * rule.windowSeconds

/-- Every request that is passed on has been counted, at some time; the limit over every interval;
and what the requests get that are not passed on. -/
structure IntervalsBounded (rule : RateLimitRule) (ip : String) (trace : CounterTrace)
    (y : CounterStage) : Prop where
  counted : ∀ i, PassedOn rule ip y i → ∃ a, CountedIn rule ip trace a i
  passed : ∀ (a : ℕ) (is : List ℕ), is.Nodup →
    (∀ i ∈ is, PassedOn rule ip y i ∧ CountedIn rule ip trace a i) → is.length ≤ 2 * rule.limit
  refused : (∀ e ∈ trace, e.1 ≠ .crash) → ∀ task ∈ y.tasks, Falls rule ip task.request →
    ¬ task.Live → task.rest = .ret (.inl .next) ∨ ∃ retryAfter : ℤ,
      task.rest = .ret (.inl (.tooManyRequests retryAfter)) ∧ 1 ≤ retryAfter ∧
        retryAfter ≤ rule.windowSeconds

/-- Whatever Redis holds under the key is a counter that expires within the window, if ever. -/
def Tidy (rule : RateLimitRule) (ip : String) (s : CounterStore) : Prop :=
  ∀ v deadline, s.entries (.gateway (rateLimitKey rule.name ip)) = some (v, deadline) →
    (∃ n, v = .counter n) ∧
      ∀ expiresAt, deadline = some expiresAt → expiresAt ≤ s.clock + 1000 * rule.windowSeconds

private theorem Tidy.life (h : Tidy rule ip s) :
    ∃ w, Life (.gateway (rateLimitKey rule.name ip)) rule.windowSeconds w s := by
  cases hentry : s.entries (.gateway (rateLimitKey rule.name ip)) with
  | none => exact ⟨none, by simp [hentry], by simp⟩
  | some e =>
    obtain ⟨v, deadline⟩ := e
    obtain ⟨⟨n, rfl⟩, hdeadline⟩ := h v deadline hentry
    cases deadline with
    | none =>
      refine ⟨some ⟨s.clock, n⟩, ?_, by simp [hentry]⟩
      intro v' deadline' hv
      rw [hentry] at hv
      cases hv
      exact ⟨_, rfl, rfl, le_rfl, by simp⟩
    | some expiresAt =>
      have hle := hdeadline expiresAt rfl
      refine ⟨some ⟨expiresAt - 1000 * rule.windowSeconds, n⟩, ?_, by simp [hentry]⟩
      intro v' deadline' hv
      rw [hentry] at hv
      cases hv
      refine ⟨_, rfl, rfl, by simp only; omega, ?_⟩
      intro x hx
      cases hx
      simp only
      omega

private theorem run_life (hrule : rule ∈ rules) (hs : Tidy rule ip s)
    (h : Run (workingServer env).Step ⟨s, []⟩ trace y) :
    ∃ w, Life (.gateway (rateLimitKey rule.name ip)) rule.windowSeconds w y.state := by
  let key := rateLimitKey rule.name ip
  have hboth := h.invariant (J := fun x =>
    (∀ task ∈ x.tasks, task.rest.Only (Respects key rule.windowSeconds)) ∧
      ∃ w, Life (.gateway key) rule.windowSeconds w x.state) ⟨by simp, hs.life⟩ (by
    intro x l z hx hstep
    obtain ⟨hrespects, w, hlife⟩ := hx
    refine ⟨respects_step hrule ip x l z hrespects hstep, ?_⟩
    rcases life_step rule.limit hstep hrespects hlife with ⟨-, hnext, -⟩ | ⟨-, w', -, -, -, -, -, hnext⟩
    · exact ⟨w, hnext⟩
    · exact ⟨w', hnext⟩)
  exact hboth.2

private theorem mem_passers {a i : ℕ} (h : Run (workingServer env).Step ⟨s, []⟩ trace y)
    (hpassed : PassedOn rule ip y i) (hcounted : CountedIn rule ip trace a i) :
    i ∈ trace.filterMap
      (passer (rateLimitKey rule.name ip) rule.limit a (1000 * rule.windowSeconds)) := by
  obtain ⟨task, htask, hfalls, hrest⟩ := hpassed
  obtain ⟨r, z, hentry, hle, hlt⟩ := hcounted
  obtain ⟨task', htask', hlog⟩ := h.to_log hentry
  obtain rfl := Option.some.inj (htask'.symm.trans htask)
  obtain ⟨x, -, hstep⟩ := h.entry (J := fun _ => True) trivial (fun _ _ _ _ _ => trivial) hentry
  obtain ⟨q, log, -, hworks⟩ := hstep.act_effect
  obtain ⟨n, rfl⟩ : ∃ n, r = .ok n := hworks
  obtain ⟨req, hreq, hrule, rfl⟩ := hfalls.http
  have hn : n ≤ rule.limit := by
    cases run_decides h task' (List.mem_of_getElem? htask) req hreq with
    | inl hstopped =>
      obtain ⟨-, e, hraise⟩ := hstopped
      rw [hrest] at hraise
      cases hraise
    | inr hwp =>
      rw [hrest] at hwp
      obtain ⟨reply, hreply, hjudged⟩ := hwp
      cases hreply
      rcases hjudged rule hrule with ⟨-, -, hall⟩ | ⟨left, hleft, -⟩
      · apply hall n
        exact List.mem_filterMap.mpr ⟨_, hlog, rfl⟩
      · cases hleft
  rw [List.mem_filterMap]
  exact ⟨_, hentry, if_pos ⟨rfl, hn, hle, hlt⟩⟩

private theorem counted_of_passedOn (hrule : rule ∈ rules)
    (h : Run (workingServer env).Step ⟨s, []⟩ trace y) {i : ℕ} (hpassed : PassedOn rule ip y i) :
    ∃ a, CountedIn rule ip trace a i := by
  obtain ⟨task, htask, hfalls, hrest⟩ := hpassed
  obtain ⟨req, hreq, hresolve, rfl⟩ := hfalls.http
  cases run_decides h task (List.mem_of_getElem? htask) req hreq with
  | inl hstopped =>
    obtain ⟨-, e, hraise⟩ := hstopped
    rw [hrest] at hraise
    cases hraise
  | inr hwp =>
    rw [hrest] at hwp
    obtain ⟨reply, hreply, hjudged⟩ := hwp
    cases hreply
    rcases hjudged rule hresolve with ⟨-, ⟨n, hcounted⟩, -⟩ | ⟨left, hleft, -⟩
    · obtain ⟨⟨c, r⟩, hevent, heq⟩ := List.mem_filterMap.mp hcounted
      cases c with
      | auth c => cases heq
      | gateway c =>
        cases heq
        obtain ⟨before, t, v, after, htrace, -, -, -⟩ := h.of_log htask hevent
        refine ⟨v.state.clock, .ok n, v, ?_, le_rfl, ?_⟩
        · rw [htrace]
          simp
        · have hseconds := windowSeconds_eq hrule
          omega
    · cases hleft

private theorem secondsLeft_le {t : CounterStore} {key : CounterKey} {seconds : ℕ} {w : Option Window}
    (h : Life key seconds w t) : secondsLeft t key ≤ seconds := by
  cases hlive : t.live key with
  | none =>
    simp only [secondsLeft, hlive]
    omega
  | some v =>
    obtain ⟨deadline, hentry⟩ := Cache.entry_of_live hlive
    obtain ⟨life, -, -, -, hdeadline⟩ := h.entry _ _ hentry
    cases deadline with
    | none =>
      simp only [secondsLeft, hlive, hentry]
      omega
    | some expiresAt =>
      have hle := (hdeadline expiresAt rfl).2
      simp only [secondsLeft, hlive, hentry]
      omega

/-- What passes in an interval is charged to the windows that the counter's lives are. -/
private theorem passed_le (hrule : rule ∈ rules) (ip : String) (hs : Tidy rule ip s)
    (h : Run (workingServer env).Step ⟨s, []⟩ trace y) {a : ℕ} {is : List ℕ} (hnodup : is.Nodup)
    (hall : ∀ i ∈ is, PassedOn rule ip y i ∧ CountedIn rule ip trace a i) :
    is.length ≤ 2 * rule.limit := by
  have hsub : is ⊆ trace.filterMap
      (passer (rateLimitKey rule.name ip) rule.limit a (1000 * rule.windowSeconds)) := by
    intro i hi
    exact mem_passers h (hall i hi).1 (hall i hi).2
  obtain ⟨w, hlife⟩ := hs.life
  have hbound := (run_steps hrule ip h (by simp) hlife).counted_le (a : ℤ)
  have hlength := passers_length (rateLimitKey rule.name ip) rule.limit a
    (1000 * rule.windowSeconds) trace
  push_cast at hlength
  rw [← hlength] at hbound
  exact (hnodup.subperm hsub).length_le.trans hbound

private theorem retryAfter_le (hrule : rule ∈ rules) (hs : Tidy rule ip s)
    (h : Run (workingServer env).Step ⟨s, []⟩ trace y)
    {task : Task counterInterface Failure (LimitReply ⊕ AuthReply) CounterRequest}
    (hm : task ∈ y.tasks) {left : ℤ}
    (hlog : ⟨.ttl (rateLimitKey rule.name ip), .ok left⟩ ∈ gatewayLog task.log) :
    left ≤ rule.windowSeconds := by
  obtain ⟨i, hi⟩ := List.mem_iff_getElem?.mp hm
  obtain ⟨⟨c, r⟩, hevent, heq⟩ := List.mem_filterMap.mp hlog
  cases c with
  | auth c => cases heq
  | gateway c =>
    cases heq
    obtain ⟨before, t, v, after, -, hbefore, hstep, -⟩ := h.of_log hi hevent
    obtain ⟨w, hlife⟩ := run_life hrule hs hbefore
    obtain ⟨q, log, -, hworks⟩ := hstep.act_effect
    have hleft : Except.ok left =
        Except.ok (secondsLeft t.state (.gateway (rateLimitKey rule.name ip))) := hworks
    cases hleft
    exact secondsLeft_le hlife

/-- In every interleaving the limiter counts what it passes on, passes at most two limits on in an
interval of the length of its window, and answers the rest with a time to wait. -/
theorem rate_limit_bounds (env : CounterEnv) (hrule : rule ∈ rules) (ip : String)
    (hs : Tidy rule ip s) (h : Run (workingServer env).Step ⟨s, []⟩ trace y) :
    IntervalsBounded rule ip trace y := by
  constructor
  · intro i hpassed
    exact counted_of_passedOn hrule h hpassed
  · intro a is hnodup hall
    exact passed_le hrule ip hs h hnodup hall
  · intro hrunning task hm hfalls hended
    obtain ⟨req, hreq, hresolve, rfl⟩ := hfalls.http
    have hwp : task.rest.Wp (fun _ _ => True) (logged fits)
        (Post (fun out log => ∃ reply, out = .inl reply ∧ Judged req reply (gatewayLog log))
          fun _ _ => False) task.log := by
      cases run_decides h task hm req hreq with
      | inl hstopped =>
        obtain ⟨⟨e, he, hcrash⟩, -⟩ := hstopped
        exact absurd hcrash (hrunning e he)
      | inr hwp => exact hwp
    cases hrest : task.rest with
    | call c k => exact absurd ⟨c, k, hrest⟩ hended
    | raise e =>
      rw [hrest] at hwp
      exact hwp.elim
    | ret out =>
      rw [hrest] at hwp
      obtain ⟨reply, rfl, hjudged⟩ := hwp
      rcases hjudged rule hresolve with ⟨rfl, -, -⟩ | ⟨left, rfl, hlog⟩
      · exact .inl rfl
      · have hle := retryAfter_le hrule hs h hm hlog
        have hseconds := windowSeconds_eq hrule
        exact .inr ⟨_, rfl, by omega, by omega⟩

/-- A login that is counted and passed on. -/
theorem rate_limit_bounds_login : ∃ (trace : CounterTrace) (y : CounterStage),
    Run (workingServer ⟨{}, AuthEnv.sample⟩).Step ⟨noEntries, []⟩ trace y ∧
      PassedOn authLogin "203.0.113.7" y 0 ∧ IntervalsBounded authLogin "203.0.113.7" trace y := by
  have hfalls : Falls authLogin "203.0.113.7" (.http loginAttempt) :=
    ⟨resolveRule_address .login, by decide⟩
  obtain ⟨k₁, h₁, k₂, h₂, k₃, h₃, h₄⟩ := loginAttempt_commands ⟨{}, AuthEnv.sample⟩
  obtain ⟨trace, y, hrun, hy⟩ : Reaches (workingServer ⟨{}, AuthEnv.sample⟩).Step ⟨noEntries, []⟩
      fun y => PassedOn authLogin "203.0.113.7" y 0 := by
    apply Reaches.next (.begin (.http loginAttempt))
    apply Reaches.next (Server.Step.act_last h₁ (And.intro rfl rfl))
    apply Reaches.next (Server.Step.act_last h₂ (And.intro (Or.inl ⟨rfl, rfl⟩) ⟨1, rfl⟩))
    apply Reaches.next (Server.Step.act_last h₃ (And.intro (Or.inl ⟨rfl, rfl⟩) rfl))
    exact Reaches.here ⟨_, rfl, hfalls, h₄⟩
  have htidy : Tidy authLogin "203.0.113.7" noEntries := by
    intro v deadline hv
    cases hv
  have hrule : authLogin ∈ rules := List.mem_cons_of_mem _ List.mem_cons_self
  exact ⟨trace, y, hrun, hy,
    rate_limit_bounds ⟨{}, AuthEnv.sample⟩ hrule "203.0.113.7" htidy hrun⟩

end Bound

end CloudVM.Limits
