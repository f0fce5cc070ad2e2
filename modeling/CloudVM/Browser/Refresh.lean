import CloudVM.Browser.Api
import CloudVM.Framework.Requests
import Mathlib.Data.List.Count

/-!
# One refresh at a time

While a refresh is not over, `refreshPromise` holds it, and no other. A request that was refused
awaits a refresh that had not been answered when the refusal came, since the interceptor runs
before the next response.
-/

namespace CloudVM.Browser

open Promises

section Shared

/-- What `then`, `catch` and `finally` leave on the call. -/
def refreshCallbacks : List (Callback RefreshCallback) :=
  [.onFulfilled .setCookies, .onRejected .logout, .always .release]

/-- How far the chain of a refresh may have come. -/
def Stage : Promise RefreshCallback → Prop
  | .pending cs => cs = refreshCallbacks
  | .settling _ cs => cs <:+ refreshCallbacks
  | .settled _ => True

/-- The callback of `finally` has not run. -/
def Held : Promise RefreshCallback → Prop
  | .pending _ => True
  | .settling _ cs => cs ≠ []
  | .settled _ => False

theorem held_cons (o : Outcome) (c : Callback RefreshCallback)
    (cs : List (Callback RefreshCallback)) : Held (.settling o (c :: cs)) := List.cons_ne_nil _ _

theorem held_of_pending {p : Promise RefreshCallback} (h : p.isPending = true) : Held p := by
  cases p with
  | pending cs => trivial
  | settling o cs => cases h
  | settled o => cases h

theorem suffix_callbacks {cs : List (Callback RefreshCallback)} (h : cs <:+ refreshCallbacks) :
    cs = refreshCallbacks ∨ cs = [.onRejected .logout, .always .release] ∨
      cs = [.always .release] ∨ cs = [] := by
  simpa [refreshCallbacks, List.suffix_cons_iff] using h

/-- What one job does: the outcome stays, and only the callback of `finally` releases the promise. -/
structure JobSpec (p q : Promise RefreshCallback) (s t : Page) : Prop where
  outcome : q.outcome? = p.outcome?
  stage : Stage q
  notPending : ∀ cs, q ≠ .pending cs
  refreshes : t.refreshes = s.refreshes
  requests : t.requests = s.requests
  log : t.log = s.log ∨ t.log = .logout :: s.log
  released : (Held q ↔ Held p) ∧ t.refreshPromise = s.refreshPromise ∨
    Held p ∧ ¬ Held q ∧ t.refreshPromise = none

theorem job_spec {p : Promise RefreshCallback} (hstage : Stage p) (hbusy : p.busy = true) (s : Page) :
    JobSpec p (p.job perform s).1 s (p.job perform s).2 := by
  cases p with
  | pending cs => cases hbusy
  | settled o => cases hbusy
  | settling o cs =>
    rcases suffix_callbacks hstage with rfl | rfl | rfl | rfl
    · cases o <;>
        exact ⟨rfl, ⟨[_], rfl⟩, nofun, rfl, rfl, .inl rfl,
          .inl ⟨iff_of_true (held_cons _ _ _) (held_cons _ _ _), rfl⟩⟩
    · cases o with
      | fulfilled =>
        exact ⟨rfl, ⟨[_, _], rfl⟩, nofun, rfl, rfl, .inl rfl,
          .inl ⟨iff_of_true (held_cons _ _ _) (held_cons _ _ _), rfl⟩⟩
      | rejected =>
        exact ⟨rfl, ⟨[_, _], rfl⟩, nofun, rfl, rfl, .inr rfl,
          .inl ⟨iff_of_true (held_cons _ _ _) (held_cons _ _ _), rfl⟩⟩
    · have hheld := held_cons o (.always .release) []
      have hover : ¬ Held (.settling o []) := fun h => h rfl
      cases o <;>
        exact ⟨rfl, ⟨refreshCallbacks, rfl⟩, nofun, rfl, rfl, .inl rfl, .inr ⟨hheld, hover, rfl⟩⟩
    · refine ⟨rfl, trivial, nofun, rfl, rfl, .inl rfl, .inl ⟨?_, rfl⟩⟩
      exact ⟨fun h => h.elim, fun h => h rfl⟩

/-- The promise that is held is the one that has not been released, and while the interceptor is to
run on a refusal, no callback of a refresh is. -/
structure Shared (s : Page) : Prop where
  stage : ∀ p ∈ s.refreshes, Stage p
  held : ∀ k p, s.refreshes[k]? = some p → (Held p ↔ s.refreshPromise = some k)
  known : ∀ k, s.refreshPromise = some k → k < s.refreshes.length
  alone : ∀ r ∈ s.requests, r.progress = .rejected (some 401) → ∀ p ∈ s.refreshes, p.busy = false

variable {s t : Page}

theorem quiet_iff : s.quiet = true ↔
    (∀ p ∈ s.refreshes, p.busy = false) ∧ ∀ r ∈ s.requests, s.due r = false := by
  simp only [Page.quiet, Bool.and_eq_true, List.all_eq_true, Bool.not_eq_true']

theorem not_rejected_of_quiet (h : s.quiet = true) {r : Request} (hr : r ∈ s.requests)
    {status : Option ℕ} : r.progress ≠ .rejected status := by
  intro hrejected
  have hdue := (quiet_iff.mp h).2 r hr
  simp [Page.due, hrejected] at hdue

theorem Shared.of_requests (h : Shared s) (hrefreshes : t.refreshes = s.refreshes)
    (hpromise : t.refreshPromise = s.refreshPromise)
    (halone : (∀ r ∈ t.requests, r.progress = .rejected (some 401) → r ∈ s.requests) ∨
      ∀ p ∈ s.refreshes, p.busy = false) : Shared t where
  stage := hrefreshes ▸ h.stage
  held := hrefreshes ▸ hpromise ▸ h.held
  known := hrefreshes ▸ hpromise ▸ h.known
  alone := by
    intro r hr hrejected
    rw [hrefreshes]
    exact halone.elim (fun hin => h.alone r (hin r hr hrejected) hrejected) id

theorem Shared.put (h : Shared s) (id : ℕ) {r : Request}
    (hr : r.progress ≠ .rejected (some 401)) : Shared (s.put id r) := by
  refine h.of_requests rfl rfl (.inl ?_)
  intro r' hr' hrejected
  rcases List.mem_or_eq_of_mem_set hr' with hmem | rfl
  · exact hmem
  · exact absurd hrejected hr

theorem Shared.refreshSession (h : Shared s) (halone : ∀ p ∈ s.refreshes, p.busy = false) :
    Shared (refreshSession s).2 := by
  cases hpromise : s.refreshPromise with
  | some k =>
    rw [Browser.refreshSession, hpromise]
    exact h
  | none =>
    rw [Browser.refreshSession, hpromise]
    refine ⟨?_, ?_, ?_, ?_⟩
    · intro p hp
      rcases List.mem_append.mp hp with hp | hp
      · exact h.stage p hp
      · obtain rfl := List.mem_singleton.mp hp
        rfl
    · intro k p hk
      rcases getElem?_append_cases hk with ⟨rfl, rfl⟩ | hk
      · exact iff_of_true trivial rfl
      · refine iff_of_false (fun hp => ?_) (fun heq => ?_)
        · exact absurd ((h.held k p hk).mp hp) (by simp [hpromise])
        · obtain ⟨hlt, -⟩ := List.getElem?_eq_some_iff.mp hk
          exact hlt.ne (Option.some.inj heq).symm
    · rintro k ⟨⟩
      simp
    · intro _ _ _ p hp
      rcases List.mem_append.mp hp with hp | hp
      · exact halone p hp
      · obtain rfl := List.mem_singleton.mp hp
        rfl

theorem Shared.answer (h : Shared s) (hquiet : s.quiet = true) {k : ℕ}
    {callbacks : List (Callback RefreshCallback)} (hk : s.refreshes[k]? = some (.pending callbacks))
    (o : Outcome) (log : List Entry) :
    Shared { s with refreshes := s.refreshes.set k (.settling o callbacks), log } := by
  have hstage := h.stage _ (List.mem_of_getElem? hk)
  refine ⟨?_, ?_, ?_, ?_⟩
  · intro p hp
    rcases List.mem_or_eq_of_mem_set hp with hp | rfl
    · exact h.stage p hp
    · exact hstage ▸ List.suffix_refl _
  · intro j p hj
    rcases getElem?_set_cases hj with ⟨rfl, rfl⟩ | ⟨-, hj⟩
    · refine iff_of_true ?_ ((h.held j _ hk).mp trivial)
      exact hstage ▸ List.cons_ne_nil _ _
    · exact h.held j p hj
  · intro j hj
    exact (h.known j hj).trans_eq (List.length_set ..).symm
  · intro r hr hrejected
    exact absurd hrejected (not_rejected_of_quiet hquiet hr)

theorem Shared.job (h : Shared s) {k : ℕ} {p : Promise RefreshCallback}
    (hk : s.refreshes[k]? = some p) (hbusy : p.busy = true) : Shared (s.job k p) := by
  have hin := List.mem_of_getElem? hk
  obtain ⟨-, hstage, -, hrefreshes, hrequests, -, hreleased⟩ := job_spec (h.stage p hin) hbusy s
  simp only [Page.job]
  generalize p.job perform s = out at *
  obtain ⟨q, t⟩ := out
  simp only at hstage hrefreshes hrequests hreleased ⊢
  refine ⟨?_, ?_, ?_, ?_⟩
  · intro p' hp'
    rw [hrefreshes] at hp'
    rcases List.mem_or_eq_of_mem_set hp' with hp' | rfl
    · exact h.stage p' hp'
    · exact hstage
  · intro j p' hj
    rw [hrefreshes] at hj
    rcases hreleased with ⟨hsame, hpromise⟩ | ⟨hheld, hover, hpromise⟩
    · rw [hpromise]
      rcases getElem?_set_cases hj with ⟨rfl, rfl⟩ | ⟨-, hj⟩
      · rw [hsame, h.held j p hk]
      · exact h.held j p' hj
    · -- the promise that is released was held, so no other is
      rw [hpromise]
      refine iff_of_false ?_ nofun
      rcases getElem?_set_cases hj with ⟨rfl, rfl⟩ | ⟨hne, hj⟩
      · exact hover
      · intro hp'
        have hsame := ((h.held j p' hj).mp hp').symm.trans ((h.held k p hk).mp hheld)
        exact hne (Option.some.inj hsame)
  · intro j hj
    rw [hrefreshes, List.length_set]
    rcases hreleased with ⟨-, hpromise⟩ | ⟨-, -, hpromise⟩
    · exact h.known j (hpromise ▸ hj)
    · rw [hpromise] at hj
      cases hj
  · intro r hr hrejected
    rw [hrequests] at hr
    exact absurd hbusy (by simp [h.alone r hr hrejected p hin])

def Refreshes (r : Request) (status : Option ℕ) : Prop :=
  isAuthFlowRequest r.call.url = false ∧ status = some 401 ∧ r.retry = false

theorem onRejected_cases (s : Page) (id : ℕ) (r : Request) (status : Option ℕ) :
    onRejected s id r status = s.put id { r with progress := .ended } ∨
      Refreshes r status ∧ onRejected s id r status =
        (refreshSession s).2.put id
          { r with retry := true, progress := .awaiting (refreshSession s).1 } := by
  unfold onRejected
  split
  · exact .inl rfl
  · rename_i hflow
    split
    · rename_i hrefreshes
      exact .inr ⟨⟨Bool.eq_false_of_not_eq_true hflow, hrefreshes⟩, rfl⟩
    · exact .inl rfl

theorem Shared.step {e : Event} (h : Shared s) (hs : Step s e t) : Shared t := by
  cases hs with
  | issue call =>
    refine h.of_requests rfl rfl (.inl ?_)
    intro r hr hrejected
    rcases List.mem_append.mp hr with hr | hr
    · exact hr
    · obtain rfl := List.mem_singleton.mp hr
      cases hrejected
  | fail hr hsent => exact h.put _ nofun
  | respond hquiet hr hsent status =>
    have hidle := (quiet_iff.mp hquiet).1
    unfold received
    split
    · exact h.of_requests rfl rfl (.inr hidle)
    · exact h.of_requests rfl rfl (.inr hidle)
  | answer hquiet hk o => exact h.answer hquiet hk o _
  | @intercept id r status hr hrejected =>
    rcases onRejected_cases s id r status with heq | ⟨⟨-, rfl, -⟩, heq⟩
    · rw [heq]
      exact h.put _ nofun
    · rw [heq]
      exact (h.refreshSession (h.alone r (List.mem_of_getElem? hr) hrejected)).put _ nofun
  | job hk hbusy => exact h.job hk hbusy
  | @resume id k r o hr hawaiting hk =>
    cases o with
    | fulfilled =>
      have hlog : Shared { s with log := .resend id :: s.log } :=
        h.of_requests rfl rfl (.inl fun _ hr _ => hr)
      exact hlog.put id (r := { r with progress := .sent }) nofun
    | rejected => exact h.put id (r := { r with progress := .ended }) nofun
  | setCookie value => exact h.of_requests rfl rfl (.inl fun _ hr _ => hr)

theorem Shared.unique (h : Shared s) {j k : ℕ} {p q : Promise RefreshCallback}
    (hj : s.refreshes[j]? = some p) (hk : s.refreshes[k]? = some q) (hp : Held p) (hq : Held q) :
    j = k :=
  Option.some.inj (((h.held j p hj).mp hp).symm.trans ((h.held k q hk).mp hq))

end Shared

section History

/-- A refusal of the request, then no answer to the refresh but after it. -/
def Waits (id k : ℕ) (log : List Entry) : Prop :=
  ∃ after before, log = after ++ .response id 401 :: before ∧ .refresh k ∈ log ∧
    ∀ o, .refreshed k o ∉ before

/-- A refresh that was in flight at a refusal of the request, or started after it, has succeeded;
the newest entry is the first. -/
def RefreshedSince (id : ℕ) (earlier : List Entry) : Prop :=
  ∃ after before k, earlier = after ++ .response id 401 :: before ∧
    (.refresh k ∈ after ∨ .refresh k ∈ before ∧ ∀ o, .refreshed k o ∉ before) ∧
    .refreshed k .fulfilled ∈ after

/-- What the log says about refreshes. -/
structure RefreshLog (refreshes : List (Promise RefreshCallback)) (log : List Entry) : Prop where
  started : ∀ k, log.count (.refresh k) = if k < refreshes.length then 1 else 0
  known : ∀ k o, .refreshed k o ∈ log → k < refreshes.length
  unanswered : ∀ k cs, refreshes[k]? = some (.pending cs) → ∀ o, .refreshed k o ∉ log
  fulfilled : ∀ k p, refreshes[k]? = some p → p.outcome? = some .fulfilled →
    .refreshed k .fulfilled ∈ log

/-- What the log says about requests. -/
structure RequestLog (requests : List Request) (log : List Entry) : Prop where
  request : ∀ id call, .request id call ∈ log → ∃ r, requests[id]? = some r ∧ r.call = call
  resent : ∀ id, .resend id ∈ log → ∃ r, requests[id]? = some r ∧ r.retry = true ∧
    isAuthFlowRequest r.call.url = false ∧ ∀ k, r.progress ≠ .awaiting k
  once : ∀ id, log.count (.resend id) ≤ 1
  refused : ∀ id r, requests[id]? = some r → r.progress = .rejected (some 401) →
    .response id 401 ∈ log
  waits : ∀ id r k, requests[id]? = some r → r.progress = .awaiting k →
    r.retry = true ∧ isAuthFlowRequest r.call.url = false ∧ Waits id k log
  since : ∀ id later earlier, log = later ++ .resend id :: earlier → RefreshedSince id earlier

variable {refreshes : List (Promise RefreshCallback)} {requests : List Request} {log : List Entry}
  {e : Entry}

theorem Waits.cons {id k : ℕ} (h : Waits id k log) (e : Entry) : Waits id k (e :: log) := by
  obtain ⟨after, before, rfl, hk, hnot⟩ := h
  exact ⟨e :: after, before, rfl, List.mem_cons_of_mem e hk, hnot⟩

theorem waits_of_unanswered {id k : ℕ} (hrefused : .response id 401 ∈ log) (hk : .refresh k ∈ log)
    (hnot : ∀ o, .refreshed k o ∉ log) : Waits id k log := by
  obtain ⟨after, before, rfl⟩ := List.append_of_mem hrefused
  refine ⟨after, before, rfl, hk, fun o ho => hnot o ?_⟩
  exact List.mem_append_right after (List.mem_cons_of_mem _ ho)

theorem Waits.refreshedSince {id k : ℕ} (h : Waits id k log)
    (hfulfilled : .refreshed k .fulfilled ∈ log) : RefreshedSince id log := by
  obtain ⟨after, before, rfl, hk, hnot⟩ := h
  have hsplit : ∀ {e : Entry}, e ≠ .response id 401 →
      e ∈ after ++ .response id 401 :: before → e ∈ after ∨ e ∈ before := by
    intro e hne he
    rcases List.mem_append.mp he with he | he
    · exact .inl he
    · exact .inr (List.mem_of_ne_of_mem hne he)
  refine ⟨after, before, k, rfl, ?_, ?_⟩
  · exact (hsplit (by nofun) hk).imp_right fun hbefore => ⟨hbefore, hnot⟩
  · exact (hsplit (by nofun) hfulfilled).resolve_right (hnot .fulfilled)

section Refreshes

theorem RefreshLog.cons (h : RefreshLog refreshes log) (hrefresh : ∀ k, e ≠ .refresh k)
    (hrefreshed : ∀ k o, e ≠ .refreshed k o) : RefreshLog refreshes (e :: log) where
  started := by
    intro k
    rw [List.count_cons_of_ne (hrefresh k), h.started k]
  known := by
    intro k o hin
    exact h.known k o (List.mem_of_ne_of_mem (hrefreshed k o).symm hin)
  unanswered := by
    intro k cs hk o hin
    exact h.unanswered k cs hk o (List.mem_of_ne_of_mem (hrefreshed k o).symm hin)
  fulfilled := fun k p hk hp => List.mem_cons_of_mem e (h.fulfilled k p hk hp)

theorem RefreshLog.mem (h : RefreshLog refreshes log) {k : ℕ} (hk : k < refreshes.length) :
    .refresh k ∈ log := by
  rw [← List.count_pos_iff, h.started k, if_pos hk]
  exact Nat.one_pos

theorem RefreshLog.start (h : RefreshLog refreshes log) (cs : List (Callback RefreshCallback)) :
    RefreshLog (refreshes ++ [.pending cs]) (.refresh refreshes.length :: log) where
  started := by
    intro k
    rw [List.length_append, List.length_singleton]
    by_cases hk : k = refreshes.length
    · rw [hk, List.count_cons_self, h.started, if_neg (lt_irrefl _), if_pos (Nat.lt_succ_self _)]
    · have hlt : k < refreshes.length + 1 ↔ k < refreshes.length := by omega
      have hne : Entry.refresh refreshes.length ≠ .refresh k :=
        fun heq => hk (Entry.refresh.inj heq).symm
      simp only [List.count_cons_of_ne hne, h.started, hlt]
  known := by
    intro k o hin
    have hk := h.known k o ((List.mem_cons.mp hin).resolve_left nofun)
    rw [List.length_append]
    exact hk.trans_le (Nat.le_add_right _ _)
  unanswered := by
    intro k cs' hk o hin
    have hin := (List.mem_cons.mp hin).resolve_left nofun
    rcases getElem?_append_cases hk with ⟨rfl, -⟩ | hk
    · exact (h.known _ o hin).false
    · exact h.unanswered k cs' hk o hin
  fulfilled := by
    intro k p hk hp
    rcases getElem?_append_cases hk with ⟨-, rfl⟩ | hk
    · cases hp
    · exact List.mem_cons_of_mem _ (h.fulfilled k p hk hp)

theorem RefreshLog.answer (h : RefreshLog refreshes log) {k : ℕ}
    {cs : List (Callback RefreshCallback)} (hk : refreshes[k]? = some (.pending cs)) (o : Outcome) :
    RefreshLog (refreshes.set k (.settling o cs)) (.refreshed k o :: log) where
  started := by
    intro j
    rw [List.count_cons_of_ne (by nofun), List.length_set, h.started j]
  known := by
    intro j o' hin
    rw [List.length_set]
    rcases List.mem_cons.mp hin with heq | hin
    · obtain ⟨rfl, -⟩ := Entry.refreshed.inj heq
      exact (List.getElem?_eq_some_iff.mp hk).1
    · exact h.known j o' hin
  unanswered := by
    intro j cs' hj o' hin
    rcases getElem?_set_cases hj with ⟨-, heq⟩ | ⟨hne, hj⟩
    · cases heq
    · refine h.unanswered j cs' hj o' (List.mem_of_ne_of_mem ?_ hin)
      exact fun heq => hne (Entry.refreshed.inj heq).1
  fulfilled := by
    intro j p hj hp
    rcases getElem?_set_cases hj with ⟨rfl, rfl⟩ | ⟨-, hj⟩
    · obtain rfl : o = .fulfilled := Option.some.inj hp
      exact List.mem_cons_self
    · exact List.mem_cons_of_mem _ (h.fulfilled j p hj hp)

theorem RefreshLog.set (h : RefreshLog refreshes log) {k : ℕ} {p q : Promise RefreshCallback}
    (hk : refreshes[k]? = some p) (houtcome : q.outcome? = p.outcome?)
    (hpending : ∀ cs, q ≠ .pending cs) : RefreshLog (refreshes.set k q) log where
  started := by
    intro j
    rw [List.length_set, h.started j]
  known := fun j o hin => (h.known j o hin).trans_eq (List.length_set ..).symm
  unanswered := by
    intro j cs hj
    rcases getElem?_set_cases hj with ⟨-, heq⟩ | ⟨-, hj⟩
    · exact absurd heq.symm (hpending cs)
    · exact h.unanswered j cs hj
  fulfilled := by
    intro j p' hj hp'
    rcases getElem?_set_cases hj with ⟨rfl, rfl⟩ | ⟨-, hj⟩
    · exact h.fulfilled j p hk (houtcome ▸ hp')
    · exact h.fulfilled j p' hj hp'

theorem RefreshLog.step {ev : Event} (h : RefreshLog s.refreshes s.log) (hshared : Shared s)
    (hs : Step s ev t) : RefreshLog t.refreshes t.log := by
  cases hs with
  | issue call => exact h.cons nofun nofun
  | fail hr hsent => exact h
  | respond hquiet hr hsent status =>
    unfold received
    split
    · exact h.cons nofun nofun
    · exact h.cons nofun nofun
  | answer hquiet hk o => exact h.answer hk o
  | @intercept id r status hr hrejected =>
    rcases onRejected_cases s id r status with heq | ⟨-, heq⟩
    · rw [heq]
      exact h
    · rw [heq]
      simp only [Page.put, refreshSession]
      split
      · exact h
      · exact h.start _
  | @job k p hk hbusy =>
    obtain ⟨houtcome, -, hpending, hrefreshes, -, hlog, -⟩ :=
      job_spec (hshared.stage p (List.mem_of_getElem? hk)) hbusy s
    have hset := h.set hk houtcome hpending
    simp only [Page.job]
    rw [hrefreshes]
    rcases hlog with hlog | hlog
    · rw [hlog]
      exact hset
    · rw [hlog]
      exact hset.cons nofun nofun
  | @resume id k r o hr hawaiting hk =>
    cases o with
    | fulfilled => exact h.cons nofun nofun
    | rejected => exact h
  | setCookie value => exact h

end Refreshes

section Requests

private theorem since_cons
    (h : ∀ id later earlier, log = later ++ .resend id :: earlier → RefreshedSince id earlier)
    (he : ∀ id, e = .resend id → RefreshedSince id log) (id : ℕ) (later earlier : List Entry)
    (heq : e :: log = later ++ .resend id :: earlier) : RefreshedSince id earlier := by
  rcases List.cons_eq_append_iff.mp heq with ⟨-, hlast⟩ | ⟨later', -, hlog⟩
  · obtain ⟨hid, rfl⟩ := List.cons.inj hlast
    exact he id hid.symm
  · exact h id later' earlier hlog

theorem RequestLog.waits_cons (h : RequestLog requests log) (e : Entry) (id : ℕ) (r : Request)
    (k : ℕ) (hr : requests[id]? = some r) (hawaiting : r.progress = .awaiting k) :
    r.retry = true ∧ isAuthFlowRequest r.call.url = false ∧ Waits id k (e :: log) := by
  obtain ⟨hretry, hflow, hwaits⟩ := h.waits id r k hr hawaiting
  exact ⟨hretry, hflow, hwaits.cons e⟩

theorem RequestLog.cons (h : RequestLog requests log) (hrequest : ∀ id call, e ≠ .request id call)
    (hresend : ∀ id, e ≠ .resend id) : RequestLog requests (e :: log) where
  request := by
    intro id call hin
    exact h.request id call (List.mem_of_ne_of_mem (hrequest id call).symm hin)
  resent := fun id hin => h.resent id (List.mem_of_ne_of_mem (hresend id).symm hin)
  once := by
    intro id
    rw [List.count_cons_of_ne (hresend id)]
    exact h.once id
  refused := fun id r hr hrejected => List.mem_cons_of_mem e (h.refused id r hr hrejected)
  waits := h.waits_cons e
  since := since_cons h.since fun id heq => absurd heq (hresend id)

private theorem getElem?_of_set {τ : Type} {xs : List τ} {i j : ℕ} {x y : τ} (z : τ)
    (hi : xs[i]? = some x) (hj : xs[j]? = some y) :
    (y = x ∧ (xs.set i z)[j]? = some z) ∨ (xs.set i z)[j]? = some y := by
  by_cases hij : i = j
  · subst hij
    have hlt := (List.getElem?_eq_some_iff.mp hi).1
    exact .inl ⟨Option.some.inj (hj.symm.trans hi), List.getElem?_set_self hlt⟩
  · exact .inr ((List.getElem?_set_ne hij).trans hj)

theorem RequestLog.put (h : RequestLog requests log) {id : ℕ} {r r' : Request}
    (hr : requests[id]? = some r) (hcall : r'.call = r.call) (hretry : r.retry = true → r'.retry = true)
    (hrefused : r'.progress = .rejected (some 401) → .response id 401 ∈ log)
    (hwaits : ∀ k, r'.progress = .awaiting k → r.retry = false ∧ r'.retry = true ∧
      isAuthFlowRequest r'.call.url = false ∧ Waits id k log) :
    RequestLog (requests.set id r') log where
  request := by
    intro j call hin
    obtain ⟨r₀, hr₀, hcall₀⟩ := h.request j call hin
    rcases getElem?_of_set r' hr hr₀ with ⟨rfl, hset⟩ | hset
    · exact ⟨r', hset, hcall.trans hcall₀⟩
    · exact ⟨r₀, hset, hcall₀⟩
  resent := by
    intro j hin
    obtain ⟨r₀, hr₀, hretry₀, hflow, hgoes⟩ := h.resent j hin
    rcases getElem?_of_set r' hr hr₀ with ⟨rfl, hset⟩ | hset
    · refine ⟨r', hset, hretry hretry₀, hcall ▸ hflow, fun k hk => ?_⟩
      exact Bool.false_ne_true ((hwaits k hk).1.symm.trans hretry₀)
    · exact ⟨r₀, hset, hretry₀, hflow, hgoes⟩
  once := h.once
  refused := by
    intro j r₀ hj hrejected
    rcases getElem?_set_cases hj with ⟨rfl, rfl⟩ | ⟨-, hj⟩
    · exact hrefused hrejected
    · exact h.refused j r₀ hj hrejected
  waits := by
    intro j r₀ k hj hawaiting
    rcases getElem?_set_cases hj with ⟨rfl, rfl⟩ | ⟨-, hj⟩
    · exact (hwaits k hawaiting).2
    · exact h.waits j r₀ k hj hawaiting
  since := h.since

theorem RequestLog.issue (h : RequestLog requests log) (call : Call) :
    RequestLog (requests ++ [{ call := call }]) (.request requests.length call :: log) where
  request := by
    intro id call' hin
    rcases List.mem_cons.mp hin with heq | hin
    · obtain ⟨rfl, rfl⟩ := Entry.request.inj heq
      exact ⟨_, List.getElem?_concat_length, rfl⟩
    · obtain ⟨r, hr, hcall⟩ := h.request id call' hin
      exact ⟨r, List.getElem?_append_left (List.getElem?_eq_some_iff.mp hr).1 ▸ hr, hcall⟩
  resent := by
    intro id hin
    obtain ⟨r, hr, hrest⟩ := h.resent id ((List.mem_cons.mp hin).resolve_left nofun)
    exact ⟨r, List.getElem?_append_left (List.getElem?_eq_some_iff.mp hr).1 ▸ hr, hrest⟩
  once := by
    intro id
    rw [List.count_cons_of_ne (by nofun)]
    exact h.once id
  refused := by
    intro id r hr hrejected
    rcases getElem?_append_cases hr with ⟨-, rfl⟩ | hr
    · cases hrejected
    · exact List.mem_cons_of_mem _ (h.refused id r hr hrejected)
  waits := by
    intro id r k hr hawaiting
    rcases getElem?_append_cases hr with ⟨-, rfl⟩ | hr
    · cases hawaiting
    · exact h.waits_cons _ id r k hr hawaiting
  since := since_cons h.since nofun

/-- A request that awaited a refresh and was not sent again before is. -/
theorem RequestLog.resend (h : RequestLog requests log) {id : ℕ} {r : Request}
    (hr : requests[id]? = some r) (hretry : r.retry = true)
    (hflow : isAuthFlowRequest r.call.url = false) (hgoes : ∀ k, r.progress ≠ .awaiting k)
    (hfirst : .resend id ∉ log) (hsince : RefreshedSince id log) :
    RequestLog requests (.resend id :: log) where
  request := fun j call hin => h.request j call ((List.mem_cons.mp hin).resolve_left nofun)
  resent := by
    intro j hin
    rcases List.mem_cons.mp hin with heq | hin
    · obtain rfl := Entry.resend.inj heq
      exact ⟨r, hr, hretry, hflow, hgoes⟩
    · exact h.resent j hin
  once := by
    intro j
    by_cases hj : j = id
    · rw [hj, List.count_cons_self, List.count_eq_zero.mpr hfirst]
    · have hne : Entry.resend id ≠ .resend j := fun heq => hj (Entry.resend.inj heq).symm
      rw [List.count_cons_of_ne hne]
      exact h.once j
  refused := fun j r' hr' hrejected => List.mem_cons_of_mem _ (h.refused j r' hr' hrejected)
  waits := h.waits_cons _
  since := by
    refine since_cons h.since fun j heq => ?_
    obtain rfl := Entry.resend.inj heq
    exact hsince

theorem not_resent {id k : ℕ} {r : Request} (h : RequestLog requests log)
    (hr : requests[id]? = some r) (hawaiting : r.progress = .awaiting k) : .resend id ∉ log := by
  intro hin
  obtain ⟨r', hr', -, -, hgoes⟩ := h.resent id hin
  obtain rfl := Option.some.inj (hr.symm.trans hr')
  exact hgoes k hawaiting

/-- The promise that a refused request comes to await is not answered. -/
theorem refreshSession_unanswered (hshared : Shared s) (hlog : RefreshLog s.refreshes s.log)
    (halone : ∀ p ∈ s.refreshes, p.busy = false) :
    .refresh (refreshSession s).1 ∈ (refreshSession s).2.log ∧
      ∀ o, .refreshed (refreshSession s).1 o ∉ (refreshSession s).2.log := by
  unfold refreshSession
  split
  · rename_i k hpromise
    have hlt := hshared.known k hpromise
    refine ⟨hlog.mem hlt, ?_⟩
    have hk := List.getElem?_eq_getElem hlt
    have hheld := (hshared.held k _ hk).mpr hpromise
    have hidle := halone _ (List.mem_of_getElem? hk)
    generalize s.refreshes[k] = p at hk hheld hidle
    cases p with
    | pending cs => exact hlog.unanswered k cs hk
    | settling o cs => cases hidle
    | settled o => exact hheld.elim
  · refine ⟨List.mem_cons_self, fun o hin => ?_⟩
    exact (hlog.known _ o ((List.mem_cons.mp hin).resolve_left nofun)).false

theorem RequestLog.refreshSession (h : RequestLog s.requests s.log) :
    RequestLog (refreshSession s).2.requests (refreshSession s).2.log := by
  unfold Browser.refreshSession
  split
  · exact h
  · exact h.cons nofun nofun

theorem refreshSession_requests (s : Page) : (refreshSession s).2.requests = s.requests := by
  unfold refreshSession
  split <;> rfl

theorem RequestLog.step {ev : Event} (h : RequestLog s.requests s.log) (hshared : Shared s)
    (hrefresh : RefreshLog s.refreshes s.log) (hs : Step s ev t) :
    RequestLog t.requests t.log := by
  cases hs with
  | issue call => exact h.issue call
  | fail hr hsent => exact h.put hr rfl id nofun nofun
  | @respond id r hquiet hr hsent status =>
    have hcons : RequestLog s.requests (.response id status :: s.log) := h.cons nofun nofun
    unfold received
    split
    · exact hcons.put hr rfl (fun hretry => hretry) nofun nofun
    · refine hcons.put hr rfl (fun hretry => hretry) (fun hrejected => ?_) nofun
      obtain rfl := Option.some.inj (Progress.rejected.inj hrejected)
      exact List.mem_cons_self
  | answer hquiet hk o => exact h.cons nofun nofun
  | @intercept id r status hr hrejected =>
    rcases onRejected_cases s id r status with heq | ⟨⟨hflow, rfl, hretry⟩, heq⟩
    · rw [heq]
      exact h.put hr rfl (fun hretry => hretry) nofun nofun
    · -- no refresh has been answered since the refusal, so the one that is awaited has not been
      rw [heq]
      have halone := hshared.alone r (List.mem_of_getElem? hr) hrejected
      obtain ⟨hk, hnot⟩ := refreshSession_unanswered hshared hrefresh halone
      have hr' := (refreshSession_requests s).symm ▸ hr
      have hrefused := h.refreshSession.refused id r hr' hrejected
      refine h.refreshSession.put hr' rfl (fun _ => rfl) nofun (fun k hawaiting => ?_)
      obtain rfl := Progress.awaiting.inj hawaiting
      exact ⟨hretry, rfl, hflow, waits_of_unanswered hrefused hk hnot⟩
  | @job k p hk hbusy =>
    obtain ⟨-, -, -, -, hrequests, hlog, -⟩ :=
      job_spec (hshared.stage p (List.mem_of_getElem? hk)) hbusy s
    simp only [Page.job]
    rw [hrequests]
    rcases hlog with hlog | hlog
    · rw [hlog]
      exact h
    · rw [hlog]
      exact h.cons nofun nofun
  | @resume id k r o hr hawaiting hk =>
    have hgoes : ∀ {r' : Request}, r'.call = r.call → r'.retry = r.retry →
        r'.progress ≠ .rejected (some 401) → (∀ j, r'.progress ≠ .awaiting j) →
        RequestLog (s.requests.set id r') s.log := fun hcall hretry hrejected hnot =>
      h.put hr hcall (fun hmarked => hretry.trans hmarked) (fun heq => absurd heq hrejected)
        fun j heq => absurd heq (hnot j)
    cases o with
    | fulfilled =>
      obtain ⟨hretry, hflow, hwaits⟩ := h.waits id r k hr hawaiting
      have hlt := (List.getElem?_eq_some_iff.mp hr).1
      have hsince := hwaits.refreshedSince (hrefresh.fulfilled k _ hk rfl)
      have hsent : RequestLog (s.requests.set id { r with progress := .sent }) s.log :=
        hgoes rfl rfl nofun nofun
      exact hsent.resend (List.getElem?_set_self hlt) hretry hflow nofun
        (not_resent h hr hawaiting) hsince
    | rejected => exact hgoes rfl rfl nofun nofun
  | setCookie value => exact h

end Requests

end History

section Runs

variable {trace : List (Event × Page)} {rememberMe : Option String}

/-- The requests `POST /auth/refresh` that are in flight, whoever sent them. -/
def refreshPosts (s : Page) : ℕ :=
  s.refreshes.countP Promise.isPending + s.requests.countP fun r =>
    r.progress = .sent ∧ r.call.method = .post ∧ r.call.url = "/auth/refresh"

/-- The page refreshes once at a time, and a request is sent again once, for a refresh that
succeeded after its refusal. -/
structure RefreshesOnce (s : Page) : Prop where
  inFlight : refreshPosts s ≤ 1
  once : ∀ id, s.log.count (.resend id) ≤ 1
  since : ∀ id later earlier, s.log = later ++ .resend id :: earlier → RefreshedSince id earlier
  authFlow : ∀ id call, .request id call ∈ s.log → isAuthFlowRequest call.url = true →
    .resend id ∉ s.log
  refresh : ∀ k, s.log.count (.refresh k) ≤ 1

private theorem countP_le_one {τ : Type} {xs : List τ} {p : τ → Bool}
    (h : ∀ j k : ℕ, ∀ x y, xs[j]? = some x → xs[k]? = some y → p x = true → p y = true → j = k) :
    xs.countP p ≤ 1 := by
  induction xs with
  | nil => simp
  | cons x xs ih =>
    rw [List.countP_cons]
    split
    · rename_i hx
      have hrest : xs.countP p = 0 := by
        rw [List.countP_eq_zero]
        intro y hy hpy
        obtain ⟨k, hk⟩ := List.mem_iff_getElem?.mp hy
        cases h 0 (k + 1) x y rfl hk hx hpy
      rw [hrest]
    · refine ih fun j k y z hj hk hy hz => ?_
      exact Nat.succ.inj (h (j + 1) (k + 1) y z hj hk hy hz)

theorem Shared.refreshPosts_le (h : Shared s) : refreshPosts s ≤ 1 := by
  have hnone : (s.requests.countP fun r =>
      r.progress = .sent ∧ r.call.method = .post ∧ r.call.url = "/auth/refresh") = 0 := by
    rw [List.countP_eq_zero]
    intro r _ hr
    exact r.call.other (of_decide_eq_true hr).2
  rw [refreshPosts, hnone]
  exact countP_le_one fun j k p q hj hk hp hq =>
    h.unique hj hk (held_of_pending hp) (held_of_pending hq)

/-- What every step keeps. -/
structure Sound (s : Page) : Prop where
  shared : Shared s
  refreshes : RefreshLog s.refreshes s.log
  requests : RequestLog s.requests s.log

theorem sound_opened (rememberMe : Option String) : Sound (opened rememberMe) where
  shared := ⟨nofun, nofun, nofun, nofun⟩
  refreshes := ⟨fun _ => rfl, nofun, nofun, nofun⟩
  requests := by
    refine ⟨nofun, nofun, fun _ => Nat.zero_le 1, nofun, nofun, ?_⟩
    intro id later earlier heq
    exact absurd heq (by simp [opened])

theorem Sound.step {e : Event} (h : Sound s) (hs : Step s e t) : Sound t where
  shared := h.shared.step hs
  refreshes := h.refreshes.step h.shared hs
  requests := h.requests.step h.shared h.refreshes hs

theorem sound_of_run (h : Run Step (opened rememberMe) trace s) : Sound s :=
  h.invariant (sound_opened rememberMe) fun _ _ _ ht hs => ht.step hs

/-- In every run of a page, whatever the order of responses and jobs. -/
theorem refreshes_once (h : Run Step (opened rememberMe) trace s) : RefreshesOnce s := by
  obtain ⟨hshared, hrefreshes, hrequests⟩ := sound_of_run h
  refine ⟨hshared.refreshPosts_le, hrequests.once, hrequests.since, ?_, ?_⟩
  · intro id call hcall hflow hresend
    obtain ⟨r, hr, rfl⟩ := hrequests.request id call hcall
    obtain ⟨r', hr', -, hnot, -⟩ := hrequests.resent id hresend
    obtain rfl := Option.some.inj (hr.symm.trans hr')
    exact Bool.false_ne_true (hnot.symm.trans hflow)
  · intro k
    rw [hrefreshes.started k]
    split <;> simp

private def listVms : Call := ⟨.get, "/vms", by decide⟩

private def vmStats : Call := ⟨.get, "/vms/stats", by decide⟩

/-- Two requests are refused one after the other, and both are sent again after one refresh. -/
theorem refreshes_once_two : ∃ trace s, Run Step (opened none) trace s ∧
    s.log.count (.resend 0) = 1 ∧ s.log.count (.resend 1) = 1 ∧ s.log.count (.refresh 0) = 1 ∧
    RefreshesOnce s := by
  have h : Run Step (opened none) [] (opened none) := .nil
  have h := h.snoc (.issue listVms)
  have h := h.snoc (.issue vmStats)
  have h := h.snoc (l := .respond 0 401) (.respond rfl rfl rfl 401)
  have h := h.snoc (l := .intercept 0) (.intercept rfl rfl)
  have h := h.snoc (l := .respond 1 401) (.respond rfl rfl rfl 401)
  have h := h.snoc (l := .intercept 1) (.intercept rfl rfl)
  have h := h.snoc (l := .answer 0 .fulfilled) (.answer rfl rfl .fulfilled)
  have h := h.snoc (l := .job 0) (.job rfl rfl)
  have h := h.snoc (l := .job 0) (.job rfl rfl)
  have h := h.snoc (l := .job 0) (.job rfl rfl)
  have h := h.snoc (l := .job 0) (.job rfl rfl)
  have h := h.snoc (l := .resume 0) (.resume rfl rfl rfl)
  have h := h.snoc (l := .resume 1) (.resume rfl rfl rfl)
  exact ⟨_, _, h, by decide +kernel, by decide +kernel, by decide +kernel, refreshes_once h⟩

end Runs

end CloudVM.Browser
