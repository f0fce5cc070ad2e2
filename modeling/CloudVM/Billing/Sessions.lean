import CloudVM.Billing.Credit
import CloudVM.Billing.Replay

/-!
# Payments of other sessions

The payments of a session are looked up by a prefix of their method, so the payments of every
session whose id begins with the id at hand are found as well. Only payments that are settled and
cannot be activated come out of this unchanged.
-/

namespace CloudVM

open Process PaymentService Replay

namespace Checkouts

section Methods

/-- An id that Stripe gives to a session. -/
structure SessionId (s : String) : Prop where
  nonempty : s ≠ ""
  plain : ':' ∉ s.toList

/-- The method of the payment that a checkout creates. -/
def sessionMethod (sid plan usd : String) : String := s!"stripe:{sid}:plan:{plan}:usd:{usd}"

/-- The payment has the plan and the method that a checkout with the session gives it. -/
structure CreatedFor (sid : String) (row : PaymentRow) : Prop where
  made : ∃ (p : ManagedPlanId) (usd : String),
    row.planId = some p.name ∧ row.method = some (sessionMethod sid p.name usd)

/-- The condition on the method asks for a prefix of the session id. -/
theorem methodOf_sessionMethod {sessionId : String} (hs : SessionId sessionId)
    (sid plan usd : String) :
    methodOf sessionId (sessionMethod sid plan usd) = true ↔ sessionId.toList <+: sid.toList := by
  have hmethod : sessionMethod sid plan usd =
      "stripe:" ++ sid ++ (":plan:" ++ plan ++ (":usd:" ++ usd)) := by
    simp only [sessionMethod, String.append_assoc]
    rfl
  have hplan : (":plan:" ++ plan ++ (":usd:" ++ usd)).toList =
      ':' :: ("plan:" ++ plan ++ (":usd:" ++ usd)).toList := by
    simp only [String.toList_append]
    rfl
  rw [methodOf, Text.startsWith, List.isPrefixOf_iff_prefix, hmethod, String.toList_append,
    String.toList_append, String.toList_append, hplan, List.append_assoc,
    List.prefix_append_right_inj]
  exact Text.prefix_append_cons hs.plain

theorem CreatedFor.ofSession {sessionId sid : String} {row : PaymentRow}
    (hs : SessionId sessionId) (h : CreatedFor sid row) :
    row.ofSession sessionId = true ↔ sessionId.toList <+: sid.toList := by
  obtain ⟨p, usd, -, hmethod⟩ := h.made
  rw [PaymentRow.ofSession, hmethod, Option.any_some]
  exact methodOf_sessionMethod hs sid p.name usd

theorem CreatedFor.unique {a b : String} {row : PaymentRow} (ha : SessionId a) (hb : SessionId b)
    (h : CreatedFor a row) (h' : CreatedFor b row) : a = b := by
  have hab : a.toList <+: b.toList := (h'.ofSession ha).mp ((h.ofSession ha).mpr List.prefix_rfl)
  have hba : b.toList <+: a.toList := (h.ofSession hb).mp ((h'.ofSession hb).mpr List.prefix_rfl)
  exact String.toList_inj.mp (hab.eq_of_length_le hba.length_le)

theorem CreatedFor.same {sid : String} {old row : PaymentRow} (h : CreatedFor sid old)
    (hsame : old.Same row) : CreatedFor sid row := by
  obtain ⟨p, usd, hplan, hmethod⟩ := h.made
  exact ⟨p, usd, hsame.planId ▸ hplan, hsame.method ▸ hmethod⟩

theorem CreatedFor.plan {sid : String} {row : PaymentRow} (h : CreatedFor sid row)
    (lower : String → String) : ∃ planId, extractPlanFromPayment lower row = some planId := by
  obtain ⟨p, usd, hplan, -⟩ := h.made
  refine ⟨.managed p, ?_⟩
  cases p <;> simp [extractPlanFromPayment, hplan, ManagedPlanId.name, SubscriptionPlanId.ofName?,
    ManagedPlanId.ofName?]

end Methods

section Tables

def Issued (sid : String) : (c : PaymentCall) → c.Answer → Prop
  | .createSession _, .ok session => session.id = sid
  | _, _ => True

/-- The calls of a checkout for which Stripe opens the session `sid`. -/
def issuing (env : PaymentEnv) (sid : String) (c : PaymentCall) (s : PaymentStore) (r : c.Answer)
    (s' : PaymentStore) : Prop := c.mayServe env.json s r s' ∧ Issued sid c r

/-- Tables whose payments come from checkouts with distinct session ids. Between checkouts
sessions are confirmed, events delivered and users served. -/
inductive Built (env : PaymentEnv) : List String → PaymentStore → Prop
  | start {s : PaymentStore} (h : s.payments.rows = []) : Built env [] s
  | checkout {ids : List String} {s s' : PaymentStore} {sid userId : String} {role : Role}
      {planId : ManagedPlanId} {out : Except Failure PaymentReply} (hb : Built env ids s)
      (hid : SessionId sid) (hnew : sid ∉ ids)
      (hends : (createCheckoutSession env userId role planId).Ends (issuing env sid) s out s') :
      Built env (sid :: ids) s'
  | confirm {ids : List String} {s s' : PaymentStore} {userId sessionId : String}
      {out : Except Failure PaymentReply} (hb : Built env ids s)
      (hends : (confirmCheckoutSession env userId sessionId).Ends (PaymentCall.mayServe env.json)
        s out s') : Built env ids s'
  | deliver {ids : List String} {s s' : PaymentStore} {event : StripeEvent}
      {out : Except Failure PaymentReply} (hb : Built env ids s)
      (hends : (handleEvent env event).Ends (PaymentCall.mayServe env.json) s out s') :
      Built env ids s'
  | change {ids : List String} {s s' : PaymentStore} (hb : Built env ids s)
      (hc : PaymentStore.Changes env.json s s') : Built env ids s'

/-- Every payment was created for one of the sessions. -/
structure Listed (ids : List String) (s : PaymentStore) : Prop where
  plain : ∀ sid ∈ ids, SessionId sid
  rows : ∀ row ∈ s.payments.rows, ∃ sid ∈ ids, CreatedFor sid row

variable {env : PaymentEnv} {ids : List String} {s s' : PaymentStore}

theorem Listed.old (h : Listed ids s) (hold : s.Old s') : Listed ids s' := by
  refine ⟨h.plain, fun row hrow => ?_⟩
  obtain ⟨old, hmem, hsame⟩ := hold row hrow
  obtain ⟨sid, hsid, hcreated⟩ := h.rows old hmem
  exact ⟨sid, hsid, hcreated.same hsame⟩

def Uncreating : PaymentCall → Prop
  | .createPayment _ => False
  | _ => True

private theorem listed_of_mayServe {c : PaymentCall} {r : c.Answer} (hc : Uncreating c)
    (h : Listed ids s) (he : c.mayServe env.json s r s') : Listed ids s' := by
  apply h.old
  intro row hrow
  rcases payments_of_mayServe he hrow with hold | ⟨d, id, rfl, -⟩
  · exact hold
  · exact hc.elim

private theorem only_fetched {α : Type} {M : PaymentCall → Prop} (message : String)
    (r : Except Failure α) : (fetched message r).Only M := by
  cases r with
  | ok a => exact only_ret a
  | error e => exact only_raise _

private theorem only_checkUserService {M : PaymentCall → Prop} :
    (checkUserService env).Only M := by
  unfold checkUserService
  split
  · exact only_raise _
  · split
    · exact only_raise _
    · exact only_ret ()

private theorem only_plain {c : PaymentCall} (hc : Uncreating c) :
    (.call c Process.ofExcept : PaymentProcess c.Result).Only Uncreating :=
  ⟨hc, fun r => only_ofExcept r⟩

private theorem only_applyPlans (rows : List PaymentRow) :
    (applyPlans env rows).Only Uncreating := by
  induction rows with
  | nil => exact only_ret []
  | cons row rest ih =>
    have hsync : ∀ planId, (syncQuotaForPlan env row.id row.userId planId).Only Uncreating := by
      intro planId
      cases planId with
      | none => exact only_ret ()
      | some p =>
        apply only_bind only_checkUserService
        intro _
        exact ⟨trivial, only_fetched _⟩
    apply only_bind (hsync _)
    intro _
    exact only_bind ih fun applied => only_ret _

private theorem only_markStripeSessionAsPaid (sessionId : String) (expected : Option String) :
    (markStripeSessionAsPaid env sessionId expected).Only Uncreating := by
  apply only_bind (only_plain (c := PaymentCall.findStripePayments sessionId) trivial)
  intro rows
  split
  · exact only_ret _
  · split
    · exact only_raise _
    · apply only_bind (only_plain (c := PaymentCall.markPaid _) trivial)
      intro _
      exact only_bind (only_applyPlans rows) fun applied => only_ret _

theorem only_confirmCheckoutSession (userId sessionId : String) :
    (confirmCheckoutSession env userId sessionId).Only Uncreating := by
  unfold confirmCheckoutSession
  split
  · exact only_raise _
  · split
    · exact only_raise _
    · apply only_bind (only_plain (c := PaymentCall.retrieveSession sessionId) trivial)
      intro session
      cases session with
      | none => exact only_raise _
      | some session =>
        simp only [confirmRetrieved]
        split
        · exact only_raise _
        · split
          · exact only_raise _
          · exact only_bind (only_markStripeSessionAsPaid _ _) fun result => only_ret _

theorem only_handleEvent (event : StripeEvent) :
    (handleEvent env event).Only Uncreating := by
  refine ⟨trivial, fun r => ?_⟩
  cases r with
  | ok u =>
    unfold processEvent
    split
    · exact only_bind (only_markStripeSessionAsPaid _ _) fun result => only_ret _
    · apply only_bind (only_plain (c := PaymentCall.markExpired _) trivial)
      intro _
      exact only_ret _
    · exact only_ret _
  | error e =>
    dsimp only
    split
    · exact only_ret _
    · exact only_raise _

private theorem only_getSubscriptionAccessSnapshot (userId : String) :
    (getSubscriptionAccessSnapshot env userId).Only Uncreating := by
  apply only_bind only_checkUserService
  intro _
  exact ⟨trivial, only_fetched _⟩

private theorem only_requireStudent (userId : String) (planId : ManagedPlanId) :
    (requireStudent env userId planId).Only Uncreating := by
  unfold requireStudent
  split
  · have hverified : (getStudentVerification env userId).Only Uncreating := by
      apply only_bind only_checkUserService
      intro _
      exact ⟨trivial, only_fetched _⟩
    apply only_bind hverified
    intro verified
    split
    · exact only_ret ()
    · exact only_raise _
  · exact only_ret ()

private theorem only_enforcePlanPurchaseRules (userId : String) (requested : ManagedPlanId)
    (catalog : ManagedCatalog) :
    (enforcePlanPurchaseRules env userId requested catalog).Only Uncreating := by
  apply only_bind (only_getSubscriptionAccessSnapshot userId)
  intro snapshot
  split
  · exact only_ret ()
  · exact only_raise _
  · split
    · exact only_ret ()
    · split
      · exact only_ret ()
      · exact only_raise _

/-- The processes of a checkout keep every payment with one of the sessions. -/
abbrev KeepsListed {α : Type} (env : PaymentEnv) (sid : String) (ids : List String)
    (p : PaymentProcess α) : Prop :=
  p.Keeps (fun _ _ => True) (issuing env sid) (Listed ids)

private theorem keepsListed_only {α : Type} {p : PaymentProcess α} (sid : String)
    (h : p.Only Uncreating) : KeepsListed env sid ids p := by
  apply h.keeps
  · intro s c _
    trivial
  · intro c s r s' hc hs he
    exact listed_of_mayServe hc hs he.1

private theorem createdFor_toRow (sid usd userId id : String) (planId : ManagedPlanId)
    (amount : Rat) : CreatedFor sid (PaymentData.toRow
      { userId, planId, amount, currency := "TND", status := .pending
        method := sessionMethod sid planId.name usd } id) :=
  ⟨planId, usd, rfl, rfl⟩

private theorem keepsListed_openCheckout {sid : String} (hsid : sid ∈ ids)
    (userId : String) (planId : ManagedPlanId) (upgrade : Option ManagedPlanId)
    (catalog : ManagedCatalog) (rate : Rat) :
    KeepsListed env sid ids (openCheckout env userId planId upgrade catalog rate) := by
  apply keeps_call
  · intro s _
    trivial
  · intro r s s' hs he
    refine ⟨listed_of_mayServe (c := PaymentCall.createSession _) trivial hs he.1, ?_⟩
    cases r with
    | error e => exact keeps_raise e
    | ok session =>
      have hissued : session.id = sid := he.2
      apply keeps_call
      · intro s _
        trivial
      · intro r s s' hs he
        refine ⟨?_, keeps_bind (keeps_ofExcept r) fun _ => keeps_ret _⟩
        refine ⟨hs.plain, fun row hrow => ?_⟩
        rcases payments_of_mayServe he.1 hrow with ⟨old, hold, hsame⟩ | ⟨d, id, hd, rfl⟩
        · obtain ⟨sid', hsid', hcreated⟩ := hs.rows old hold
          exact ⟨sid', hsid', hcreated.same hsame⟩
        · cases hd
          refine ⟨sid, hsid, ?_⟩
          rw [hissued]
          exact createdFor_toRow sid _ userId id planId _

private theorem keepsListed_createCheckoutSession {sid : String} (hsid : sid ∈ ids)
    (userId : String) (role : Role) (planId : ManagedPlanId) :
    KeepsListed env sid ids (createCheckoutSession env userId role planId) := by
  unfold createCheckoutSession createCheckoutSessionWith
  split
  · exact keeps_raise _
  · split
    · exact keeps_raise _
    · apply keeps_bind (keepsListed_only sid (only_plain (c := PaymentCall.getPlanCatalog) trivial))
      intro catalog
      apply keeps_bind (keepsListed_only sid (only_requireStudent userId planId))
      intro _
      apply keeps_bind (keepsListed_only sid (only_enforcePlanPurchaseRules userId planId catalog))
      intro _
      apply keeps_bind (keepsListed_only sid (only_getSubscriptionAccessSnapshot userId))
      intro snapshot
      split
      · exact keeps_raise _
      · exact keepsListed_openCheckout hsid userId planId _ catalog _

private theorem listed_of_ends {p : PaymentProcess PaymentReply} {out : Except Failure PaymentReply}
    (hp : p.Only Uncreating) (h : Listed ids s)
    (hends : p.Ends (PaymentCall.mayServe env.json) s out s') : Listed ids s' := by
  have hkeeps : p.Keeps (fun _ _ => True) (PaymentCall.mayServe env.json) (Listed ids) := by
    apply hp.keeps
    · intro s c _
      trivial
    · intro c s r s' hc hs he
      exact listed_of_mayServe hc hs he
  exact (hkeeps s h).ends hends

theorem Built.listed (h : Built env ids s) : Listed ids s := by
  induction h with
  | start h => exact ⟨by simp, by simp [h]⟩
  | checkout hb hid hnew hends ih =>
    apply Wp.ends (keepsListed_createCheckoutSession List.mem_cons_self _ _ _ _ ?_) hends
    constructor
    · intro sid hsid
      rcases List.mem_cons.mp hsid with rfl | hsid
      · exact hid
      · exact ih.plain sid hsid
    · intro row hrow
      obtain ⟨sid, hsid, hcreated⟩ := ih.rows row hrow
      exact ⟨sid, List.mem_cons_of_mem _ hsid, hcreated⟩
  | confirm hb hends ih => exact listed_of_ends (only_confirmCheckoutSession _ _) ih hends
  | deliver hb hends ih => exact listed_of_ends (only_handleEvent _) ih hends
  | change hb hc ih =>
    obtain ⟨q, out, t, ⟨subs, -, rfl⟩, hs⟩ := hc
    apply ih.old
    rcases hs with rfl | rfl | rfl
    · exact old_withSubs _ subs
    · exact old_withSubs _ subs
    · exact old_withSubs _ subs

end Tables

section Users

variable {json : PlanCatalogJson}

private theorem payments_of_remote {α : Type} {p : SubscriptionProcess α} {s s' : PaymentStore}
    {out : Except Failure α} (hp : p.Only KeepsUsers) (h : PaymentStore.Remote p s out s') :
    s'.payments = s.payments := by
  obtain ⟨subs, hends, rfl⟩ := h
  apply s.withSubs_payments
  have hkeeps : p.Keeps (fun _ _ => True) SubscriptionCall.mayServe
      fun t => t.users = s.subs.users := by
    apply hp.keeps
    · intro t c _
      trivial
    · intro c t r t' hc ht he
      rw [accounts_of_mayServe hc he, ht]
  exact (hkeeps s.subs rfl).ends hends

theorem payments_of_activate {payment userId : String} {planId : SubscriptionPlanId}
    {r : Except Failure Unit} {s s' : PaymentStore}
    (h : (PaymentCall.activate payment userId planId).mayServe json s r s') :
    s'.payments = s.payments := by
  rcases PaymentCall.carried_of_mayServe h with rfl | ⟨r', out, hremote, -⟩
  · rfl
  · exact payments_of_remote (keepsUsers_activate userId planId) hremote

end Users

section Frame

variable {env : PaymentEnv} {ids : List String} {s t t' : PaymentStore} {sessionId : String}

/-- No activation is made for a payment of another session. -/
def ActivatesOwn (sessionId : String) (s : PaymentStore) (c : PaymentCall) : Prop :=
  ∀ row ∈ s.payments.rows, ¬ CreatedFor sessionId row → ∀ userId planId,
    c ≠ .activate row.id userId planId

/-- The payments of other sessions are there as they were. -/
def KeepsOthers (sessionId : String) (s t : PaymentStore) : Prop :=
  ∀ row ∈ s.payments.rows, ¬ CreatedFor sessionId row → row ∈ t.payments.rows

/-- Whatever the answers, a process changes no payment that was created for another session and
triggers no activation for it. -/
def TouchesOnlyOwn (env : PaymentEnv) (sessionId : String) (s : PaymentStore)
    (p : PaymentProcess PaymentReply) : Prop :=
  p.Wp (fun _ c => ActivatesOwn sessionId s c) (PaymentCall.mayServe env.json)
    (fun _ t => KeepsOthers sessionId s t) s

/-- What comes for a session: a completed or expired event, or a confirmation. -/
inductive Concerns (env : PaymentEnv) (sessionId : String) : PaymentProcess PaymentReply → Prop
  | completed (id : String) :
    Concerns env sessionId (handleEvent env ⟨id, .sessionCompleted, sessionId⟩)
  | expired (id : String) :
    Concerns env sessionId (handleEvent env ⟨id, .sessionExpired, sessionId⟩)
  | confirm (userId : String) :
    Concerns env sessionId (confirmCheckoutSession env userId sessionId)

/-- What comes for the session finds no payment of another one, or only payments that are settled
and cannot be activated. -/
def Unreached (env : PaymentEnv) (ids : List String) (sessionId : String) (s : PaymentStore) :
    Prop :=
  ∀ sid ∈ ids, sid ≠ sessionId → sessionId.toList <+: sid.toList →
    ∀ row ∈ s.payments.rows, CreatedFor sid row → row.status.settled = true ∧ ¬ Configured env

private theorem unreached_foreign (hs : SessionId sessionId) (hl : Listed ids s)
    (h : Unreached env ids sessionId s) {row : PaymentRow} (hrow : row ∈ s.payments.rows)
    (hforeign : ¬ CreatedFor sessionId row) (hof : row.ofSession sessionId = true) :
    row.status.settled = true ∧ ¬ Configured env := by
  obtain ⟨sid, hmem, hcreated⟩ := hl.rows row hrow
  have hne : sid ≠ sessionId := by
    intro he
    exact hforeign (he ▸ hcreated)
  exact h sid hmem hne ((hcreated.ofSession hs).mp hof) row hrow hcreated

/-- Payments that were found: a foreign one among them is settled and cannot be activated. -/
def Harmless (env : PaymentEnv) (sessionId : String) (s : PaymentStore) (rows : List PaymentRow) :
    Prop :=
  ∀ found ∈ rows, ∀ row ∈ s.payments.rows, ¬ CreatedFor sessionId row → row.id = found.id →
    row.status.settled = true ∧ ¬ Configured env

private theorem harmless_found (hs : SessionId sessionId) (hl : Listed ids s) (h : Unreached env ids sessionId s)
    (ht : KeepsOthers sessionId s t) {rows : List PaymentRow}
    (hperm : rows.Perm (t.sessionPayments sessionId)) : Harmless env sessionId s rows := by
  intro found hfound row hrow hforeign hid
  obtain ⟨hmem, hof⟩ := List.mem_filter.mp (hperm.mem_iff.mp hfound)
  have hsame : row = found := t.payments.eq_of_key_eq (ht row hrow hforeign) hmem hid
  exact unreached_foreign hs hl h hrow hforeign (hsame ▸ hof)

private theorem keepsOthers_setStatus (ht : KeepsOthers sessionId s t) {p : PaymentRow → Bool}
    {status : PaymentStatus}
    (hp : ∀ row ∈ s.payments.rows, ¬ CreatedFor sessionId row → p row = false) :
    KeepsOthers sessionId s (t.setStatus p status) := by
  intro row hrow hforeign
  refine PaymentStore.mem_setStatus.mpr ⟨row, ht row hrow hforeign, ?_⟩
  rw [hp row hrow hforeign]
  rfl

/-- Whatever the answers, the payments of other sessions stay as in `s`. -/
abbrev Spares {α : Type} (env : PaymentEnv) (sessionId : String) (s : PaymentStore)
    (p : PaymentProcess α) : Prop :=
  p.Keeps (fun _ c => ActivatesOwn sessionId s c) (PaymentCall.mayServe env.json)
    (KeepsOthers sessionId s)

private theorem spares_checkUserService {α : Type} {p : PaymentProcess α}
    (h : Configured env → Spares env sessionId s p) :
    Spares env sessionId s (checkUserService env >>= fun _ => p) := by
  unfold checkUserService
  split
  · exact keeps_raise _
  · rename_i hurl
    split
    · exact keeps_raise _
    · rename_i htoken
      exact h ⟨hurl, htoken⟩

private theorem spares_syncQuotaForPlan {found : PaymentRow}
    (h : ∀ row ∈ s.payments.rows, ¬ CreatedFor sessionId row → row.id = found.id → ¬ Configured env)
    (planId : Option SubscriptionPlanId) :
    Spares env sessionId s (syncQuotaForPlan env found.id found.userId planId) := by
  cases planId with
  | none => exact keeps_ret ()
  | some p =>
    apply spares_checkUserService
    intro hconf
    apply keeps_call
    · intro t _ row hrow hforeign userId planId hc
      exact h row hrow hforeign (PaymentCall.activate.inj hc).1.symm hconf
    · intro r t t' ht he
      refine ⟨?_, keeps_fetched _ r⟩
      intro row hrow hforeign
      rw [payments_of_activate he]
      exact ht row hrow hforeign

private theorem spares_applyPlans (rows : List PaymentRow)
    (h : Harmless env sessionId s rows) : Spares env sessionId s (applyPlans env rows) := by
  induction rows with
  | nil => exact keeps_ret []
  | cons found rest ih =>
    apply keeps_bind (spares_syncQuotaForPlan ?_ _)
    · intro _
      apply keeps_bind (ih fun r hr => h r (List.mem_cons_of_mem found hr))
      intro applied
      exact keeps_ret _
    · intro row hrow hforeign hid
      exact (h found List.mem_cons_self row hrow hforeign hid).2

private theorem activatesOwn_plain {c : PaymentCall} (hc : ∀ p u l, c ≠ .activate p u l) :
    ActivatesOwn sessionId s c := by
  intro row _ _ userId planId
  exact hc row.id userId planId

private theorem spares_markPaid (rows : List PaymentRow) (h : Harmless env sessionId s rows) :
    Spares env sessionId s (markPaid (rows.map PaymentRow.id)) := by
  apply keeps_call
  · intro t _
    exact activatesOwn_plain (by simp)
  · intro r t t' ht he
    refine ⟨?_, keeps_ofExcept r⟩
    rcases PaymentCall.carried_of_mayServe he with rfl | ⟨r', -, rfl⟩
    · exact ht
    · apply keepsOthers_setStatus ht
      intro row hrow hforeign
      by_cases hid : row.id ∈ rows.map PaymentRow.id
      · obtain ⟨found, hfound, hfid⟩ := List.mem_map.mp hid
        have hsettled := (h found hfound row hrow hforeign hfid.symm).1
        simp [hsettled]
      · simp [hid]

private theorem spares_markStripeSessionAsPaid (hs : SessionId sessionId)
    (hl : Listed ids s) (h : Unreached env ids sessionId s) (expected : Option String) :
    Spares env sessionId s (markStripeSessionAsPaid env sessionId expected) := by
  apply keeps_call
  · intro t _
    exact activatesOwn_plain (by simp)
  · intro r t t' ht he
    cases r with
    | error e =>
      rcases PaymentCall.carried_of_mayServe he with rfl | ⟨r', -, rfl⟩
      · exact ⟨ht, keeps_raise e⟩
      · exact ⟨ht, keeps_raise e⟩
    | ok rows =>
      obtain ⟨rfl, hperm⟩ := found_of_mayServe he
      have hrows : Harmless env sessionId s rows := harmless_found hs hl h ht hperm
      refine ⟨ht, ?_⟩
      simp only [Process.ofExcept_ok, Process.bind_def, Process.ret_bind]
      split
      · exact keeps_ret _
      · split
        · exact keeps_raise _
        · apply keeps_bind (spares_markPaid rows hrows)
          intro _
          apply keeps_bind (spares_applyPlans rows hrows)
          intro applied
          exact keeps_ret _

private theorem spares_markExpired (hs : SessionId sessionId) (hl : Listed ids s) (h : Unreached env ids sessionId s) :
    Spares env sessionId s (markExpired sessionId) := by
  apply keeps_call
  · intro t _
    exact activatesOwn_plain (by simp)
  · intro r t t' ht he
    refine ⟨?_, keeps_ofExcept r⟩
    rcases PaymentCall.carried_of_mayServe he with rfl | ⟨r', -, rfl⟩
    · exact ht
    · apply keepsOthers_setStatus ht
      intro row hrow hforeign
      rw [Bool.and_eq_false_iff, decide_eq_false_iff_not]
      by_cases hof : row.ofSession sessionId = true
      · right
        intro hpending
        have hsettled := (unreached_foreign hs hl h hrow hforeign hof).1
        rw [hpending] at hsettled
        cases hsettled
      · exact .inl (Bool.eq_false_iff.mpr hof)

private theorem spares_confirm (hs : SessionId sessionId) (hl : Listed ids s) (h : Unreached env ids sessionId s)
    (userId : String) : Spares env sessionId s (confirmCheckoutSession env userId sessionId) :=
  keeps_confirmCheckoutSession (fun _ _ => activatesOwn_plain (by simp))
    (fun _ => spares_markStripeSessionAsPaid hs hl h _) userId

private theorem spares_handleEvent {event : StripeEvent}
    (h : Spares env sessionId s (processEvent env event)) :
    Spares env sessionId s (handleEvent env event) := by
  apply keeps_call
  · intro t _
    exact activatesOwn_plain (by simp)
  · intro r t t' ht he
    have hkept : KeepsOthers sessionId s t' := by
      rcases PaymentCall.carried_of_mayServe he with rfl | ⟨r', ⟨hnew, -, rfl⟩ | ⟨-, -, rfl⟩⟩
      · exact ht
      · exact ht
      · exact ht
    refine ⟨hkept, ?_⟩
    cases r with
    | ok u => exact h
    | error f =>
      dsimp only
      split
      · exact keeps_ret _
      · exact keeps_raise _

theorem touchesOnlyOwn_of_unreached (hs : SessionId sessionId) (hl : Listed ids s) (h : Unreached env ids sessionId s)
    {p : PaymentProcess PaymentReply} (hp : Concerns env sessionId p) :
    TouchesOnlyOwn env sessionId s p := by
  have hstart : KeepsOthers sessionId s s := fun row hrow _ => hrow
  cases hp with
  | completed id =>
    apply spares_handleEvent _ s hstart
    apply keeps_bind (spares_markStripeSessionAsPaid hs hl h none)
    intro result
    exact keeps_ret _
  | expired id =>
    apply spares_handleEvent _ s hstart
    apply keeps_bind (spares_markExpired hs hl h)
    intro _
    exact keeps_ret _
  | confirm userId => exact spares_confirm hs hl h userId s hstart

end Frame

section Converse

variable {env : PaymentEnv} {ids : List String} {s : PaymentStore} {sessionId : String}

private theorem applies_of_completed {row : PaymentRow} (hrow : row ∈ s.payments.rows)
    (hof : row.ofSession sessionId = true)
    (h : ∀ id, TouchesOnlyOwn env sessionId s (handleEvent env ⟨id, .sessionCompleted, sessionId⟩)) :
    ∃ (ids : List String) (rest : List PaymentRow) (t : PaymentStore), row.id ∈ ids ∧
      t.payments = (s.setStatus (fun p => ids.contains p.id && !p.status.settled) .paid).payments ∧
      (applyPlans env (row :: rest)).Wp (fun _ c => ActivatesOwn sessionId s c)
        (PaymentCall.mayServe env.json)
        (fun out t => (∃ e, out = .error e) → KeepsOthers sessionId s t) t := by
  obtain ⟨id, -, hid⟩ := Text.exists_fresh (s.events.rows.map EventRow.eventId)
  have hmem : row ∈ s.sessionPayments sessionId := List.mem_filter.mpr ⟨hrow, hof⟩
  have hperm : (row :: (s.sessionPayments sessionId).erase row).Perm (s.sessionPayments sessionId) :=
    (List.perm_cons_erase hmem).symm
  generalize (s.sessionPayments sessionId).erase row = rest at hperm
  have hprocess := (h id).2 (.ok ()) (s.insertEvent ⟨id, .sessionCompleted⟩ hid)
    (.inl (.inl ⟨hid, rfl, rfl⟩))
  have hmark := ((wp_bind _ _ _ _).mp hprocess).2 (.ok (row :: rest)) _ (.inl ⟨⟨_, hperm, rfl⟩, rfl⟩)
  simp only [Process.ofExcept_ok, Process.bind_def, Process.ret_bind, reduceCtorEq, if_false,
    Option.any_none, Bool.false_eq_true] at hmark
  let marked := (s.insertEvent ⟨id, .sessionCompleted⟩ hid).setStatus
    (fun p => ((row :: rest).map PaymentRow.id).contains p.id && !p.status.settled) .paid
  have hpaid := hmark.2 (.ok ()) marked (.inl ⟨rfl, rfl⟩)
  have happly := (wp_bind (applyPlans env (row :: rest)) _ _ _).mp hpaid
  refine ⟨(row :: rest).map PaymentRow.id, rest, marked, List.mem_cons_self, rfl, ?_⟩
  apply happly.mono
  intro out t hout herror
  obtain ⟨e, rfl⟩ := herror
  exact hout

private theorem settled_of_marked {row : PaymentRow} (hrow : row ∈ s.payments.rows)
    {ids : List String} (hid : row.id ∈ ids)
    (h : row ∈ (s.setStatus (fun p => ids.contains p.id && !p.status.settled)
      .paid).payments.rows) : row.status.settled = true := by
  by_contra hs
  obtain ⟨old, hold, he⟩ := PaymentStore.mem_setStatus.mp h
  have hkey : old.id = row.id := by
    rw [← he]
    split <;> rfl
  have hsame : old = row := s.payments.eq_of_key_eq hold hrow hkey
  subst hsame
  have hp : (ids.contains old.id && !old.status.settled) = true := by simp [hid, hs]
  rw [if_pos hp] at he
  rw [← he] at hs
  exact hs rfl

theorem unreached_of_touchesOnlyOwn (hs : SessionId sessionId) (hl : Listed ids s)
    (h : ∀ id, TouchesOnlyOwn env sessionId s (handleEvent env ⟨id, .sessionCompleted, sessionId⟩)) :
    Unreached env ids sessionId s := by
  intro sid hsid hne hprefix row hrow hcreated
  have hforeign : ¬ CreatedFor sessionId row := by
    intro hown
    exact hne (hcreated.unique (hl.plain sid hsid) hs hown)
  have hof : row.ofSession sessionId = true := (hcreated.ofSession hs).mpr hprefix
  obtain ⟨marked, rest, t, hmem, hpayments, happly⟩ := applies_of_completed hrow hof h
  obtain ⟨planId, hplan⟩ := hcreated.plan env.lower
  have hsync := (wp_bind _ _ _ _).mp happly
  rw [hplan] at hsync
  have hcheck := (wp_bind _ _ _ _).mp hsync
  have hconf : ¬ Configured env := by
    intro hconf
    rw [checkUserService, if_neg hconf.1, if_neg hconf.2] at hcheck
    exact hcheck.1 row hrow hforeign row.userId planId rfl
  refine ⟨?_, hconf⟩
  have hkept : KeepsOthers sessionId s t := by
    unfold checkUserService at hcheck
    split at hcheck
    · exact hcheck ⟨_, rfl⟩
    · rename_i hurl
      split at hcheck
      · exact hcheck ⟨_, rfl⟩
      · rename_i htoken
        exact (hconf ⟨hurl, htoken⟩).elim
  have hrow' := hkept row hrow hforeign
  rw [hpayments] at hrow'
  exact settled_of_marked hrow hmem hrow'

/-- What comes for a session changes no payment of another session and triggers no activation for
it, exactly when no id of another session with payments begins with the id of this one, or those
payments are settled and the user service cannot be addressed. -/
theorem session_frame_iff (hb : Built env ids s) (hs : SessionId sessionId) :
    (∀ p, Concerns env sessionId p → TouchesOnlyOwn env sessionId s p) ↔
      Unreached env ids sessionId s := by
  constructor
  · intro h
    exact unreached_of_touchesOnlyOwn hs hb.listed fun id => h _ (.completed id)
  · intro h p hp
    exact touchesOnlyOwn_of_unreached hs hb.listed h hp

end Converse

section Sample

/-- A pending payment has been added for the session. -/
structure Added (sid id : String) (s t : PaymentStore) : Prop where
  subs : t.subs = s.subs
  planCatalog : t.planCatalog = s.planCatalog
  rows : ∃ row, t.payments.rows = s.payments.rows ++ [row] ∧ row.id = id ∧ row.status = .pending ∧
    CreatedFor sid row

private theorem checkout_may {s : PaymentStore} (hsubs : s.subs = .sample)
    (hcatalog : s.planCatalog = some sampleCatalog) (sid id : String)
    (hid : id ∉ s.payments.rows.map PaymentRow.id) :
    (createCheckoutSession .sample "u" .user .pro).May (issuing .sample sid)
      (fun _ t => Added sid id s t) s := by
  have hcomplete : s.subs.Complete := by
    rw [hsubs]
    intro p
    cases p <;> rfl
  have howner : ∃ a ∈ s.subs.users.rows, a.id = "u" := by
    rw [hsubs]
    decide
  have haccess : (PaymentCall.subscriptionAccess "u").serve PaymentEnv.sample.json s
      (.ok ⟨none, false, 0, none⟩) s := by
    have hlookup : s.subs.lookup "u" = some (⟨"u", .user, true⟩, none) := by
      rw [hsubs]
      rfl
    exact Credit.access_serves hcomplete hlookup rfl
  have hread : PaymentCall.getPlanCatalog.serve PaymentEnv.sample.json s (.ok sampleCatalog) s := by
    simp [PaymentCall.serve, hcatalog]
  apply May.call (I := paymentInterface) (c := PaymentCall.getPlanCatalog) (r := .ok sampleCatalog)
    ⟨.inl hread, trivial⟩
  apply May.call (I := paymentInterface) (c := PaymentCall.subscriptionAccess "u")
    (r := .ok ⟨none, false, 0, none⟩) ⟨.inl haccess, trivial⟩
  apply May.call (I := paymentInterface) (c := PaymentCall.subscriptionAccess "u")
    (r := .ok ⟨none, false, 0, none⟩) ⟨.inl haccess, trivial⟩
  apply May.call (I := paymentInterface) (c := PaymentCall.createSession _) (r := .ok ⟨sid, none⟩)
    ⟨.inl ⟨⟨_, rfl⟩, rfl⟩, rfl⟩
  apply May.call (I := paymentInterface) (c := PaymentCall.createPayment _) (r := .ok ())
    ⟨.inl (.inl ⟨id, hid, howner, rfl, rfl⟩), trivial⟩
  exact May.ret ⟨rfl, rfl, _, rfl, rfl, rfl, createdFor_toRow sid _ "u" id .pro _⟩

private theorem sessionId_one : SessionId "cs_1" := ⟨by decide, by decide⟩

private theorem sessionId_ten : SessionId "cs_10" := ⟨by decide, by decide⟩

private theorem two_checkouts : ∃ s, Built .sample ["cs_1", "cs_10"] s ∧
    ∃ row ∈ s.payments.rows, row.status = .pending ∧ CreatedFor "cs_10" row := by
  have hstart : Built .sample [] PaymentStore.fresh := .start rfl
  obtain ⟨_, t, hends, hten⟩ := checkout_may (s := PaymentStore.fresh) rfl rfl "cs_10" "p1" (by simp [PaymentStore.fresh])
  have ht : Built .sample ["cs_10"] t := .checkout hstart sessionId_ten (by simp) hends
  obtain ⟨ten, hrows, hid, hpending, hcreated⟩ := hten.rows
  have hfree : "p2" ∉ t.payments.rows.map PaymentRow.id := by
    rw [hrows]
    simp [PaymentStore.fresh, hid]
  obtain ⟨_, u, hends, hone⟩ := checkout_may hten.subs hten.planCatalog "cs_1" "p2" hfree
  have hu : Built .sample ["cs_1", "cs_10"] u := .checkout ht sessionId_one (by decide) hends
  obtain ⟨one, hrows', -⟩ := hone.rows
  refine ⟨u, hu, ten, ?_, hpending, hcreated⟩
  rw [hrows', hrows]
  simp

/-- No other session id begins with `cs_10`. -/
theorem session_frame_iff_longer : ∃ s, Built .sample ["cs_1", "cs_10"] s ∧
    ∀ p, Concerns .sample "cs_10" p → TouchesOnlyOwn .sample "cs_10" s p := by
  obtain ⟨s, hs, -⟩ := two_checkouts
  refine ⟨s, hs, (session_frame_iff hs sessionId_ten).mpr ?_⟩
  intro sid hsid hne hprefix
  simp only [List.mem_cons, List.not_mem_nil, or_false] at hsid
  rcases hsid with rfl | rfl
  · exact absurd hprefix (by decide)
  · exact (hne rfl).elim

/-- What comes for `cs_1` reaches the payment of `cs_10`. -/
theorem shorter_session_reaches :
    ¬ ∀ (env : PaymentEnv) (ids : List String) (s : PaymentStore) (sessionId : String)
      (p : PaymentProcess PaymentReply), Built env ids s → SessionId sessionId →
      Concerns env sessionId p → TouchesOnlyOwn env sessionId s p := by
  intro h
  obtain ⟨s, hs, row, hrow, hpending, hcreated⟩ := two_checkouts
  have hreached := unreached_of_touchesOnlyOwn sessionId_one hs.listed fun id =>
    h .sample _ s "cs_1" _ hs sessionId_one (.completed id)
  have hsettled := (hreached "cs_10" (by decide) (by decide) (by decide) row hrow hcreated).1
  rw [hpending] at hsettled
  cases hsettled

end Sample

end Checkouts

end CloudVM
