import CloudVM.Billing.Webhook

/-!
# Processing a session again

A confirmation or a new event of a session whose payments are paid and activated runs the
activations again: the status update is guarded, the activation is not. Nothing changes exactly
when each user still has the quota row that the activation writes now.
-/

namespace CloudVM

open Process PaymentService Webhook

namespace Replay

variable {env : PaymentEnv} {sessionId : String}

/-- Every payment of the session is paid, and the activation of its plan has succeeded. -/
def Settled (env : PaymentEnv) (x : PaymentStage) (sessionId : String) : Prop :=
  ∀ row ∈ x.state.payments.rows, row.ofSession sessionId = true →
    row.status.settled = true ∧ ∀ planId, extractPlanFromPayment env.lower row = some planId →
      ∃ t ∈ x.tasks, Activated row.id row.userId planId t.log

/-- A request that comes to process the session: a confirmation by the owner of its payments, or
a new completed event. -/
inductive Processes (env : PaymentEnv) (s : PaymentStore) (sessionId : String) :
    PaymentRequest → Prop
  | confirm (userId : String) (hstripe : env.stripeConfigured = true)
      (hsession : Text.jsTrim sessionId ≠ "")
      (howner : ∀ row ∈ s.payments.rows, row.ofSession sessionId = true → row.userId = userId) :
      Processes env s sessionId (.confirm userId sessionId)
  | webhook (q : PaymentRequest) (e : StripeEvent) (hevent : q.event env = some e)
      (htype : e.type = .sessionCompleted) (hsession : e.session = sessionId)
      (hnew : e.id ∉ s.events.rows.map EventRow.eventId) : Processes env s sessionId q

def Configured (env : PaymentEnv) : Prop :=
  env.userServiceUrl ≠ "" ∧ env.interServiceSyncToken ≠ ""

/-- For every payment of the session with a plan, the user has the quota row that an activation
of the plan writes now. -/
def UpToDate (env : PaymentEnv) (s : PaymentStore) (sessionId : String) : Prop :=
  ∀ row ∈ s.payments.rows, row.ofSession sessionId = true →
    ∀ planId, extractPlanFromPayment env.lower row = some planId →
      ∀ a, s.subs.users.find? row.userId = some a →
        s.subs.quotas.find? row.userId = some (dueQuota s.subs a planId)

section Complete

variable {json : PlanCatalogJson} {s s' : PaymentStore}

private theorem complete_of_remote {α : Type} {p : SubscriptionProcess α} {out : Except Failure α}
    (hs : s.subs.Complete) (h : PaymentStore.Remote p s out s') : s'.subs.Complete := by
  obtain ⟨subs, hends, rfl⟩ := h
  exact hends.invariant complete_of_mayServe hs

private theorem complete_of_serve_payment {c : PaymentCall} {r : c.Answer} (hs : s.subs.Complete)
    (h : c.serve json s r s') : s'.subs.Complete := by
  cases c with
  | getPlanCatalog =>
    simp only [PaymentCall.serve] at h
    split at h
    · obtain ⟨-, rfl⟩ := h
      exact hs
    · obtain ⟨out, t, ht, -, rfl⟩ := h
      have hcomplete : t.subs.Complete := complete_of_remote hs ht
      exact hcomplete
  | studentVerification userId =>
    obtain ⟨-, rfl⟩ := h
    exact hs
  | subscriptionAccess userId =>
    obtain ⟨out, ht, -⟩ := h
    exact complete_of_remote hs ht
  | activate payment userId planId =>
    obtain ⟨out, ht, -⟩ := h
    exact complete_of_remote hs ht
  | createSession data =>
    obtain ⟨-, rfl⟩ := h
    exact hs
  | retrieveSession sessionId =>
    obtain ⟨-, rfl⟩ := h
    exact hs
  | createEvent eventId type =>
    rcases h with ⟨hnew, -, rfl⟩ | ⟨-, -, rfl⟩
    · exact hs
    · exact hs
  | findStripePayments sessionId =>
    obtain ⟨-, rfl⟩ := h
    exact hs
  | markPaid ids =>
    obtain ⟨-, rfl⟩ := h
    exact hs
  | markExpired sessionId =>
    obtain ⟨-, rfl⟩ := h
    exact hs
  | createPayment data =>
    rcases h with ⟨id, hid, howner, -, rfl⟩ | ⟨-, -, rfl⟩
    · exact hs
    · exact hs

private theorem complete_step (x : PaymentStage) (l : PaymentLabel) (y : PaymentStage)
    (hx : x.state.subs.Complete) (h : (paymentServer env).Step x l y) : y.state.subs.Complete := by
  cases h with
  | begin q => exact hx
  | act ht he =>
    rcases PaymentCall.carried_of_mayServe he with rfl | ⟨r', he⟩
    · exact hx
    · exact complete_of_serve_payment hx he
  | crash e ht hl => exact hx
  | change hc =>
    obtain ⟨q, out, t, ht, hs⟩ := hc
    have hcomplete : t.subs.Complete := complete_of_remote hx ht
    rcases hs with rfl | rfl | rfl
    · exact hcomplete
    · exact hcomplete
    · exact hcomplete

end Complete

section Unchanged

variable {s t t' : PaymentStore}

/-- The users, quotas, plans and payments are as before. -/
structure Frozen (s t : PaymentStore) : Prop where
  subs : t.subs = s.subs
  payments : t.payments = s.payments

private theorem putQuota_same {subs : SubscriptionDb} {q : UserQuota}
    (h : ∃ a ∈ subs.users.rows, a.id = q.userId) (hq : subs.quotas.find? q.userId = some q) :
    subs.putQuota q h = subs := by
  cases subs
  simp only [SubscriptionDb.putQuota, SubscriptionDb.mk.injEq, true_and, and_true]
  exact Table.upsert_self hq

private theorem frozen_withSubs (h : Frozen s t) {subs : SubscriptionDb} (hs : subs = s.subs) :
    Frozen s (t.withSubs subs) := by
  refine ⟨hs, ?_⟩
  rw [t.withSubs_payments subs (by rw [hs, h.subs]), h.payments]

private theorem frozen_activate (hcomplete : s.subs.Complete) (h : Frozen s t) {payment userId : String}
    {planId : SubscriptionPlanId}
    (hdue : ∀ a, s.subs.users.find? userId = some a →
      s.subs.quotas.find? userId = some (dueQuota s.subs a planId))
    {r : Except Failure Unit}
    (he : (PaymentCall.activate payment userId planId).mayServe env.json t r t') : Frozen s t' := by
  rcases PaymentCall.carried_of_mayServe he with rfl | ⟨r', out, ⟨subs, hends, rfl⟩, -⟩
  · exact h
  · rw [h.subs] at hends
    apply frozen_withSubs h
    rcases (activation_leaves hcomplete userId planId).ends hends with rfl | ⟨a, howner, ha, rfl⟩
    · rfl
    · have hid : a.id = userId := ((Table.find?_eq_some _).mp ha).2
      apply putQuota_same
      have hq := hdue a ha
      rw [← hid] at hq
      exact hq

private theorem setStatus_none {p : PaymentRow → Bool} {status : PaymentStatus}
    (h : ∀ row ∈ t.payments.rows, p row = false) : (t.setStatus p status).payments = t.payments := by
  apply Table.ext_rows
  change t.payments.rows.map _ = t.payments.rows
  conv_rhs => rw [← List.map_id t.payments.rows]
  apply List.map_congr_left
  intro row hrow
  simp [h row hrow]

private theorem frozen_markPaid (h : Frozen s t) {ids : List String}
    (hids : ∀ row ∈ s.payments.rows, row.id ∈ ids → row.status.settled = true)
    {r : Except Failure Unit} (he : (PaymentCall.markPaid ids).mayServe env.json t r t') :
    Frozen s t' := by
  rcases PaymentCall.carried_of_mayServe he with rfl | ⟨r', -, rfl⟩
  · exact h
  · refine ⟨h.subs, ?_⟩
    rw [← h.payments] at hids ⊢
    apply setStatus_none
    intro row hrow
    by_cases hid : row.id ∈ ids
    · simp [hids row hrow hid]
    · simp [hid]

end Unchanged

section Processing

variable {s : PaymentStore}

/-- Whatever the answers, the process leaves users, quotas, plans and payments as in `s`. -/
abbrev Freezes {α : Type} (env : PaymentEnv) (s : PaymentStore) (p : PaymentProcess α) : Prop :=
  p.Keeps (fun _ _ => True) (PaymentCall.mayServe env.json) (Frozen s)

section Keeps

variable {P : PaymentStore → PaymentCall → Prop} {J : PaymentStore → Prop}

theorem keeps_fetched {α : Type} (message : String) (r : Except Failure α) :
    (fetched message r).Keeps P (PaymentCall.mayServe env.json) J := by
  cases r with
  | ok a => exact keeps_ret a
  | error e => exact keeps_raise _

/-- A confirmation asks Stripe, which changes no table, and then settles the session. -/
theorem keeps_confirmCheckoutSession (hasks : ∀ t, J t → P t (.retrieveSession sessionId))
    (hsettles : ∀ expected, (markStripeSessionAsPaid env sessionId expected).Keeps P
      (PaymentCall.mayServe env.json) J) (userId : String) :
    (confirmCheckoutSession env userId sessionId).Keeps P (PaymentCall.mayServe env.json) J := by
  have hretrieved : ∀ session, (confirmRetrieved env userId sessionId session).Keeps P
      (PaymentCall.mayServe env.json) J := by
    intro session
    cases session with
    | none => exact keeps_raise _
    | some session =>
      simp only [confirmRetrieved]
      split
      · exact keeps_raise _
      · split
        · exact keeps_raise _
        · apply keeps_bind (hsettles _)
          intro result
          exact keeps_ret _
  unfold confirmCheckoutSession
  split
  · exact keeps_raise _
  · split
    · exact keeps_raise _
    · apply keeps_call hasks
      intro r t t' ht he
      have hsame : t' = t := by
        rcases PaymentCall.carried_of_mayServe he with rfl | ⟨r', -, rfl⟩
        · rfl
        · rfl
      rw [hsame]
      exact ⟨ht, keeps_bind (keeps_ofExcept r) hretrieved⟩

end Keeps

private theorem freezes_checkUserService : Freezes env s (checkUserService env) := by
  unfold checkUserService
  split
  · exact keeps_raise _
  · split
    · exact keeps_raise _
    · exact keeps_ret ()

private theorem freezes_syncQuotaForPlan (hcomplete : s.subs.Complete) (payment userId : String)
    (planId : Option SubscriptionPlanId)
    (hdue : ∀ p, planId = some p → ∀ a, s.subs.users.find? userId = some a →
      s.subs.quotas.find? userId = some (dueQuota s.subs a p)) :
    Freezes env s (syncQuotaForPlan env payment userId planId) := by
  cases planId with
  | none => exact keeps_ret ()
  | some p =>
    apply keeps_bind freezes_checkUserService
    intro _
    apply keeps_call
    · intro t _
      trivial
    · intro r t t' ht he
      exact ⟨frozen_activate hcomplete ht (hdue p rfl) he, keeps_fetched _ r⟩

private theorem freezes_applyPlans (hcomplete : s.subs.Complete) (hdue : UpToDate env s sessionId)
    (rows : List PaymentRow)
    (hrows : ∀ row ∈ rows, row ∈ s.payments.rows ∧ row.ofSession sessionId = true) :
    Freezes env s (applyPlans env rows) := by
  induction rows with
  | nil => exact keeps_ret []
  | cons row rest ih =>
    obtain ⟨hmem, hof⟩ := hrows row (by simp)
    apply keeps_bind (freezes_syncQuotaForPlan hcomplete _ _ _ (hdue row hmem hof))
    intro _
    apply keeps_bind (ih fun r hr => hrows r (by simp [hr]))
    intro applied
    exact keeps_ret _

private theorem freezes_markPaid
    (hsettled : ∀ row ∈ s.payments.rows, row.ofSession sessionId = true → row.status.settled = true)
    (rows : List PaymentRow)
    (hrows : ∀ row ∈ rows, row ∈ s.payments.rows ∧ row.ofSession sessionId = true) :
    Freezes env s (markPaid (rows.map PaymentRow.id)) := by
  apply keeps_call
  · intro t _
    trivial
  · intro r t t' ht he
    refine ⟨frozen_markPaid ht ?_ he, keeps_ofExcept r⟩
    intro row hrow hid
    obtain ⟨found, hfound, hfid⟩ := List.mem_map.mp hid
    obtain ⟨hmem, hof⟩ := hrows found hfound
    rw [← s.payments.eq_of_key_eq hmem hrow hfid]
    exact hsettled found hmem hof

private theorem freezes_markStripeSessionAsPaid (hcomplete : s.subs.Complete)
    (hdue : UpToDate env s sessionId)
    (hsettled : ∀ row ∈ s.payments.rows, row.ofSession sessionId = true → row.status.settled = true)
    (expected : Option String) : Freezes env s (markStripeSessionAsPaid env sessionId expected) := by
  intro t ht
  refine (wp_bind _ _ _ _).mpr ⟨trivial, fun r t' he => ?_⟩
  have ht' : t' = t := by
    rcases PaymentCall.carried_of_mayServe he with rfl | ⟨r', -, rfl⟩
    · rfl
    · rfl
  subst ht'
  rw [wp_ofExcept]
  cases r with
  | error e => exact ht
  | ok rows =>
    have hrows : ∀ row ∈ rows, row ∈ s.payments.rows ∧ row.ofSession sessionId = true := by
      intro row hrow
      have hmem := (found_of_mayServe he).2.mem_iff.mp hrow
      rw [PaymentStore.sessionPayments, ht.payments] at hmem
      exact List.mem_filter.mp hmem
    simp only [post_ok]
    split
    · exact ht
    · split
      · exact ht
      · have hrest : Freezes env s (do
            markPaid (rows.map PaymentRow.id)
            let applied ← applyPlans env rows
            pure (rows.length, applied)) := by
          apply keeps_bind (freezes_markPaid hsettled rows hrows)
          intro _
          apply keeps_bind (freezes_applyPlans hcomplete hdue rows hrows)
          intro applied
          exact keeps_ret _
        exact hrest t' ht

private theorem freezes_confirm (hcomplete : s.subs.Complete) (hdue : UpToDate env s sessionId)
    (hsettled : ∀ row ∈ s.payments.rows, row.ofSession sessionId = true → row.status.settled = true)
    (userId : String) : Freezes env s (confirmCheckoutSession env userId sessionId) :=
  keeps_confirmCheckoutSession (fun _ _ => trivial)
    (fun _ => freezes_markStripeSessionAsPaid hcomplete hdue hsettled _) userId

private theorem freezes_handleEvent (hcomplete : s.subs.Complete) {e : StripeEvent}
    (hdue : UpToDate env s e.session)
    (hsettled : ∀ row ∈ s.payments.rows, row.ofSession e.session = true → row.status.settled = true)
    (htype : e.type = .sessionCompleted) : Freezes env s (handleEvent env e) := by
  apply keeps_call
  · intro t _
    trivial
  · intro r t t' ht he
    have hframe : Frozen s t' := by
      rcases PaymentCall.carried_of_mayServe he with rfl | ⟨r', ⟨hnew, -, rfl⟩ | ⟨-, -, rfl⟩⟩
      · exact ht
      · exact ⟨ht.subs, ht.payments⟩
      · exact ht
    refine ⟨hframe, ?_⟩
    cases r with
    | ok u =>
      simp only [processEvent, htype]
      apply keeps_bind (freezes_markStripeSessionAsPaid hcomplete hdue hsettled _)
      intro result
      exact keeps_ret _
    | error f =>
      dsimp only
      split
      · exact keeps_ret _
      · exact keeps_raise _

end Processing

section Moves

variable {s : PaymentStore}

private theorem may_fail (c : PaymentCall) (s : PaymentStore) :
    ∃ r, c.mayServe env.json s r s :=
  ⟨.error ⟨.connection, ""⟩, .inr ⟨⟨_, rfl, by decide⟩, .inl rfl⟩⟩

private theorem syncQuotaForPlan_ends (hconf : Configured env) (hcomplete : s.subs.Complete)
    {payment userId : String} {planId : SubscriptionPlanId} {a : Account}
    (ha : s.subs.users.find? userId = some a) :
    ∃ t, (syncQuotaForPlan env payment userId (some planId)).Ends (PaymentCall.mayServe env.json) s
      (.ok ()) t ∧ t.subs.quotas = s.subs.quotas.upsert (dueQuota s.subs a planId) := by
  obtain ⟨reply, howner, hends⟩ := @activation_ends env.json _ hcomplete _ _ planId ha
  have hcheck : (checkUserService env).Ends (PaymentCall.mayServe env.json) s (.ok ()) s := by
    rw [checkUserService, if_neg hconf.1, if_neg hconf.2]
    exact ⟨rfl, rfl⟩
  refine ⟨s.withSubs (s.subs.putQuota _ howner), Ends.bind hcheck ?_, rfl⟩
  exact Ends.call (r := .ok ()) (.inl ⟨.ok reply, ⟨_, hends, rfl⟩, rfl⟩) ⟨rfl, rfl⟩

/-- The payments can be read in an order that begins with any of them, its activation can succeed
and everything after it can fail. -/
private theorem markStripeSessionAsPaid_ends {α : Type} (hconf : Configured env)
    (hcomplete : s.subs.Complete) {row : PaymentRow} (hrow : row ∈ s.payments.rows)
    (hof : row.ofSession sessionId = true) {planId : SubscriptionPlanId}
    (hplan : extractPlanFromPayment env.lower row = some planId) {a : Account}
    (ha : s.subs.users.find? row.userId = some a) {expected : Option String}
    (hexpected : ∀ u, expected = some u → ∀ r ∈ s.payments.rows, r.ofSession sessionId = true →
      r.userId = u) (f : Nat × List SubscriptionPlanId → PaymentProcess α) :
    ∃ out t, (markStripeSessionAsPaid env sessionId expected >>= f).Ends
      (PaymentCall.mayServe env.json) s out t ∧
        t.subs.quotas = s.subs.quotas.upsert (dueQuota s.subs a planId) := by
  have hmem : row ∈ s.sessionPayments sessionId := List.mem_filter.mpr ⟨hrow, hof⟩
  have hperm : (row :: (s.sessionPayments sessionId).erase row).Perm (s.sessionPayments sessionId) :=
    (List.perm_cons_erase hmem).symm
  generalize (s.sessionPayments sessionId).erase row = rest at hperm
  have hguard : expected.any (fun u => u ≠ "" && (row :: rest).any fun p => p.userId ≠ u) = false := by
    cases expected with
    | none => rfl
    | some u =>
      simp only [Option.any_some, Bool.and_eq_false_iff]
      right
      rw [List.any_eq_false]
      intro r hr
      obtain ⟨hr, hrof⟩ := List.mem_filter.mp (hperm.mem_iff.mp hr)
      simp [hexpected u rfl r hr hrof]
  let s₁ := s.setStatus (fun p => ((row :: rest).map PaymentRow.id).contains p.id && !p.status.settled)
    .paid
  obtain ⟨t, hsync, hquotas⟩ := @syncQuotaForPlan_ends env s₁ hconf hcomplete row.id row.userId planId a ha
  obtain ⟨out, hrest⟩ := ends_unchanged may_fail (applyPlans env rest >>= fun applied =>
    f ((row :: rest).length, (some planId).toList ++ applied)) t
  refine ⟨out, t, ?_, hquotas⟩
  refine Ends.call (r := .ok (row :: rest)) (.inl ⟨⟨_, hperm, rfl⟩, rfl⟩) ?_
  simp only [Process.ofExcept_ok, Process.bind_def, Process.ret_bind, reduceCtorEq, if_false, hguard,
    Bool.false_eq_true]
  refine Ends.call (r := .ok ()) (.inl ⟨rfl, rfl⟩) ?_
  simp only [Process.ofExcept_ok, Process.bind_def, Process.ret_bind, applyPlans, hplan, Process.bind_assoc]
  exact Ends.bind hsync hrest

end Moves

section Unchanged

variable {s : PaymentStore}

private theorem upToDate_of_rows {row : PaymentRow} {a : Account} {planId : SubscriptionPlanId}
    (ha : s.subs.users.find? row.userId = some a)
    (h : (s.subs.quotas.upsert (dueQuota s.subs a planId)).rows = s.subs.quotas.rows) :
    s.subs.quotas.find? row.userId = some (dueQuota s.subs a planId) := by
  have hid : (dueQuota s.subs a planId).userId = row.userId := ((Table.find?_eq_some _).mp ha).2
  have hfind := s.subs.quotas.find?_upsert (dueQuota s.subs a planId) row.userId
  rw [if_pos hid, Table.ext_rows h] at hfind
  exact hfind

/-- Some execution of a processing request gets a payment's activation done and nothing after it. -/
private theorem processing_ends (hconf : Configured env) (hcomplete : s.subs.Complete)
    {q : PaymentRequest} (hq : Processes env s sessionId q) {row : PaymentRow}
    (hrow : row ∈ s.payments.rows) (hof : row.ofSession sessionId = true)
    {planId : SubscriptionPlanId} (hplan : extractPlanFromPayment env.lower row = some planId)
    {a : Account} (ha : s.subs.users.find? row.userId = some a) :
    ∃ out t, (q.handle env).Ends (PaymentCall.mayServe env.json) s out t ∧
      t.subs.quotas = s.subs.quotas.upsert (dueQuota s.subs a planId) := by
  cases hq with
  | confirm userId hstripe hsession howner =>
    have hexpected : ∀ u, some userId = some u → ∀ r ∈ s.payments.rows,
        r.ofSession sessionId = true → r.userId = u := by
      intro u hu r hr hrof
      cases hu
      exact howner r hr hrof
    obtain ⟨out, t, hends, hquotas⟩ := markStripeSessionAsPaid_ends hconf hcomplete hrow hof hplan ha
      hexpected fun result => pure (PaymentReply.confirmed sessionId result.1 result.2)
    refine ⟨out, t, ?_, hquotas⟩
    simp only [PaymentRequest.handle, confirmCheckoutSession, hstripe, Bool.not_true,
      Bool.false_eq_true, if_false, hsession]
    refine Ends.call (r := .ok (some ⟨none, "paid"⟩)) (.inl ⟨⟨_, rfl⟩, rfl⟩) ?_
    exact hends
  | webhook q e hevent htype hsession hnew =>
    subst hsession
    obtain ⟨out, t, hends, hquotas⟩ := @markStripeSessionAsPaid_ends env e.session
      (s.insertEvent ⟨e.id, e.type⟩ hnew) _ hconf hcomplete row hrow hof planId hplan a ha none
      (by simp) fun _ => pure PaymentReply.received
    refine ⟨out, t, ?_, hquotas⟩
    rw [PaymentRequest.handle_of_event hevent]
    refine Ends.call (r := .ok ()) (.inl (.inl ⟨hnew, rfl, rfl⟩)) ?_
    have hprocess : processEvent env e =
        markStripeSessionAsPaid env e.session none >>= fun _ => pure .received := by
      simp only [processEvent, htype]
    change (processEvent env e).Ends _ _ _ _
    rw [hprocess]
    exact hends

private theorem freezes_processing (hcomplete : s.subs.Complete) (hdue : UpToDate env s sessionId)
    (hsettled : ∀ row ∈ s.payments.rows, row.ofSession sessionId = true → row.status.settled = true)
    {q : PaymentRequest} (hq : Processes env s sessionId q) : Freezes env s (q.handle env) := by
  cases hq with
  | confirm userId hstripe hsession howner => exact freezes_confirm hcomplete hdue hsettled userId
  | webhook q e hevent htype hsession hnew =>
    subst hsession
    rw [PaymentRequest.handle_of_event hevent]
    exact freezes_handleEvent hcomplete hdue hsettled htype

/-- Processing a settled session again changes no quota row and no payment, whatever the answers,
exactly when the users of its payments have the quota rows that are due now. -/
theorem replay_unchanged_iff (hconf : Configured env) (hcomplete : s.subs.Complete)
    {trace : List (PaymentLabel × PaymentStage)} {x : PaymentStage}
    (h : Run (paymentServer env).Step ⟨s, []⟩ trace x) (hsettled : Settled env x sessionId)
    {q : PaymentRequest} (hq : Processes env x.state sessionId q) :
    (∀ out t, (q.handle env).Ends (PaymentCall.mayServe env.json) x.state out t →
      t.subs.quotas.rows = x.state.subs.quotas.rows ∧ t.payments.rows = x.state.payments.rows) ↔
      UpToDate env x.state sessionId := by
  have hx : x.state.subs.Complete := h.invariant hcomplete complete_step
  constructor
  · intro hsame row hrow hof planId hplan a ha
    obtain ⟨out, t, hends, hquotas⟩ := processing_ends hconf hx hq hrow hof hplan ha
    have hrows := (hsame out t hends).1
    rw [hquotas] at hrows
    exact upToDate_of_rows ha hrows
  · intro hdue out t hends
    have hpaid : ∀ row ∈ x.state.payments.rows, row.ofSession sessionId = true →
        row.status.settled = true := fun row hrow hof => (hsettled row hrow hof).1
    have hfrozen : Frozen x.state t :=
      (freezes_processing hx hdue hpaid hq x.state ⟨rfl, rfl⟩).ends hends
    exact ⟨by rw [hfrozen.subs], by rw [hfrozen.payments]⟩

end Unchanged

section Sample

private def proRow : PaymentRow :=
  { id := "p1", userId := "u", planId := some "pro", amount := 79
    method := some "stripe:cs_test_a1:plan:pro:usd:25.28" }

private def enterpriseRow : PaymentRow :=
  { id := "p2", userId := "u", planId := some "enterprise", amount := 120
    method := some "stripe:cs_test_b1:plan:enterprise:usd:38.40" }

private def sampleStore : PaymentStore where
  subs := .sample
  payments := ⟨[proRow, enterpriseRow], by decide⟩
  owner := by simp [proRow, enterpriseRow, SubscriptionDb.sample]
  events := .empty
  planCatalog := none

private def proQuota : UserQuota := ⟨"u", some (.managed .pro), ⟨6, 8, 16384, 120⟩⟩

private def enterpriseQuota : UserQuota :=
  ⟨"u", some (.managed .enterprise), ⟨20, 32, 65536, 400⟩⟩

private theorem sample_complete_replay : sampleStore.subs.Complete := by
  intro p
  cases p <;> rfl

private theorem sample_configured : Configured .sample := ⟨by decide, by decide⟩

private def paidProRow : PaymentRow := { proRow with status := .paid }

private def paidEnterpriseRow : PaymentRow := { enterpriseRow with status := .paid }

private theorem settled_pro {x : PaymentStage} (row : PaymentRow)
    (hrows : x.state.payments.rows = [paidProRow, row])
    (hother : row.ofSession "cs_test_a1" = false)
    (hact : ∃ t ∈ x.tasks, Activated "p1" "u" (.managed .pro) t.log) :
    Settled .sample x "cs_test_a1" := by
  intro r hr hof
  rw [hrows] at hr
  simp only [List.mem_cons, List.not_mem_nil, or_false] at hr
  rcases hr with rfl | rfl
  · refine ⟨rfl, ?_⟩
    intro planId hplan
    have hpro : extractPlanFromPayment PaymentEnv.sample.lower paidProRow = some (.managed .pro) := by
      decide
    rw [hpro] at hplan
    cases hplan
    exact hact
  · rw [hother] at hof
    cases hof

private theorem sample_user : sampleStore.subs.users.find? "u" = some ⟨"u", .user, true⟩ := rfl

private def proStore : PaymentStore :=
  (sampleStore.setStatus (fun p => ["p1"].contains p.id && !p.status.settled) .paid).withSubs
    (sampleStore.subs.putQuota proQuota (by decide))

private theorem purchase_run : Reaches (paymentServer .sample).Step ⟨sampleStore, []⟩ fun x =>
    ∃ t, x = ⟨proStore, [t]⟩ ∧ Activated "p1" "u" (.managed .pro) t.log := by
  obtain ⟨reply, howner, hends⟩ :=
    @activation_ends .unset _ sample_complete_replay _ _ (.managed .pro) sample_user
  apply Reaches.next (.begin (.confirm "u" "cs_test_a1"))
  apply Reaches.next (.act (I := paymentInterface) (i := 0)
    (c := PaymentCall.retrieveSession "cs_test_a1") (r := .ok (some ⟨some "u", "paid"⟩)) rfl
    (.inl ⟨⟨_, rfl⟩, rfl⟩))
  apply Reaches.next (.act (I := paymentInterface) (i := 0)
    (c := PaymentCall.findStripePayments "cs_test_a1") (r := .ok [proRow]) rfl
    (.inl ⟨⟨[proRow], by decide, rfl⟩, rfl⟩))
  apply Reaches.next (.act (I := paymentInterface) (i := 0)
    (c := PaymentCall.markPaid ["p1"]) (r := .ok ()) rfl (.inl ⟨rfl, rfl⟩))
  apply Reaches.next (.act (I := paymentInterface) (i := 0)
    (c := PaymentCall.activate "p1" "u" (.managed .pro)) (r := .ok ()) rfl
    (.inl ⟨.ok reply, ⟨_, hends, rfl⟩, rfl⟩))
  exact .here ⟨_, rfl, by simp [Activated]⟩

/-- The user buys pro and then enterprise; the confirmation of the first session, sent once more,
puts the user back on pro. -/
theorem old_session_replaces_plan :
    Reaches (paymentServer .sample).Step ⟨sampleStore, []⟩ fun x =>
      Settled .sample x "cs_test_a1" ∧ x.state.subs.quotas.find? "u" = some enterpriseQuota ∧
        ((PaymentRequest.confirm "u" "cs_test_a1").handle .sample).May
          (PaymentCall.mayServe PaymentEnv.sample.json) (fun out t => (∃ reply, out = .ok reply) ∧
            t.subs.quotas.find? "u" = some proQuota) x.state := by
  apply purchase_run.trans
  rintro _ ⟨bought, rfl, hact⟩
  obtain ⟨reply, howner, hends⟩ := @activation_ends .unset proStore.subs sample_complete_replay _ _
    (.managed .enterprise) sample_user
  apply Reaches.next (.begin (.confirm "u" "cs_test_b1"))
  apply Reaches.next (.act (I := paymentInterface) (i := 1)
    (c := PaymentCall.retrieveSession "cs_test_b1") (r := .ok (some ⟨some "u", "paid"⟩)) rfl
    (.inl ⟨⟨_, rfl⟩, rfl⟩))
  apply Reaches.next (.act (I := paymentInterface) (i := 1)
    (c := PaymentCall.findStripePayments "cs_test_b1") (r := .ok [enterpriseRow]) rfl
    (.inl ⟨⟨[enterpriseRow], .refl _, rfl⟩, rfl⟩))
  apply Reaches.next (.act (I := paymentInterface) (i := 1)
    (c := PaymentCall.markPaid ["p2"]) (r := .ok ()) rfl (.inl ⟨rfl, rfl⟩))
  apply Reaches.next (.act (I := paymentInterface) (i := 1)
    (c := PaymentCall.activate "p2" "u" (.managed .enterprise)) (r := .ok ()) rfl
    (.inl ⟨.ok reply, ⟨_, hends, rfl⟩, rfl⟩))
  obtain ⟨reply', howner', hends'⟩ := @activation_ends .unset (proStore.subs.putQuota _ howner)
    sample_complete_replay _ _ (.managed .pro) sample_user
  apply Reaches.here
  refine ⟨settled_pro paidEnterpriseRow rfl (by decide) ?_, rfl, ?_⟩
  · exact ⟨bought, .head _, hact⟩
  · apply May.call (I := paymentInterface) (c := PaymentCall.retrieveSession "cs_test_a1")
      (r := .ok (some ⟨some "u", "paid"⟩)) (.inl ⟨⟨_, rfl⟩, rfl⟩)
    apply May.call (I := paymentInterface) (c := PaymentCall.findStripePayments "cs_test_a1")
      (r := .ok [paidProRow]) (.inl ⟨⟨_, .refl _, rfl⟩, rfl⟩)
    apply May.call (I := paymentInterface) (c := PaymentCall.markPaid ["p1"]) (r := .ok ())
      (.inl ⟨rfl, rfl⟩)
    apply May.call (I := paymentInterface) (c := PaymentCall.activate "p1" "u" (.managed .pro))
      (r := .ok ()) (.inl ⟨.ok reply', ⟨_, hends', rfl⟩, rfl⟩)
    exact May.ret ⟨⟨_, rfl⟩, rfl⟩

/-- Confirming a session twice in a row changes nothing the second time. -/
theorem replay_unchanged_iff_twice : ∃ trace x,
    Run (paymentServer .sample).Step ⟨sampleStore, []⟩ trace x ∧ Settled .sample x "cs_test_a1" ∧
      ∀ out t, ((PaymentRequest.confirm "u" "cs_test_a1").handle .sample).Ends
        (PaymentCall.mayServe PaymentEnv.sample.json) x.state out t →
          t.subs.quotas.rows = [proQuota] := by
  obtain ⟨trace, x, hrun, t, rfl, hact⟩ := purchase_run
  have hrows : proStore.payments.rows = [paidProRow, enterpriseRow] := by decide
  have hquotas : proStore.subs.quotas.rows = [proQuota] := by decide
  have hsettled : Settled .sample ⟨proStore, [t]⟩ "cs_test_a1" :=
    settled_pro _ hrows (by decide) ⟨t, .head _, hact⟩
  have hprocesses : Processes .sample proStore "cs_test_a1" (.confirm "u" "cs_test_a1") := by
    refine .confirm "u" rfl (by decide) ?_
    intro row hrow _
    rw [hrows] at hrow
    simp only [List.mem_cons, List.not_mem_nil, or_false] at hrow
    rcases hrow with rfl | rfl <;> rfl
  have hdue : UpToDate .sample proStore "cs_test_a1" := by
    intro row hrow hof planId hplan a ha
    rw [hrows] at hrow
    simp only [List.mem_cons, List.not_mem_nil, or_false] at hrow
    rcases hrow with rfl | rfl
    · have hpro : extractPlanFromPayment PaymentEnv.sample.lower paidProRow = some (.managed .pro) := by
        decide
      rw [hpro] at hplan
      cases hplan
      obtain rfl : (⟨"u", .user, true⟩ : Account) = a := Option.some.inj (sample_user.symm.trans ha)
      decide
    · cases hof
  refine ⟨trace, _, hrun, hsettled, ?_⟩
  intro out t' hends
  have h := replay_unchanged_iff sample_configured sample_complete_replay hrun hsettled hprocesses
  rw [← hquotas]
  exact (h.mpr hdue out t' hends).1

end Sample

end Replay

end CloudVM
