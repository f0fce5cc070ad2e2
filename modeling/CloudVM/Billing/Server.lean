import CloudVM.Billing.Payment
import CloudVM.Billing.Store
import CloudVM.Framework.Requests

/-!
# The payment service under concurrent requests

The payment tables beside those of the user service, what each call answers and leaves behind,
and what else happens: requests to the user service and edits of the catalog. A request to the
user service runs there to its end.
-/

namespace CloudVM

open Text

/-- A row of `stripe_webhook_events`. -/
structure EventRow where
  eventId : String
  eventType : StripeEventType
deriving DecidableEq, Repr

structure PaymentStore where
  subs : SubscriptionDb
  payments : Table PaymentRow.id
  owner : ∀ p ∈ payments.rows, ∃ a ∈ subs.users.rows, a.id = p.userId
  events : Table EventRow.eventId
  planCatalog : Option ManagedCatalog

/-- The condition `method: { startsWith: "stripe:" + sessionId }`. -/
def methodOf (sessionId method : String) : Bool := startsWith method ("stripe:" ++ sessionId)

def PaymentRow.ofSession (sessionId : String) (p : PaymentRow) : Bool :=
  p.method.any (methodOf sessionId)

/-- `paid` or `admin_granted`. -/
def PaymentStatus.settled : PaymentStatus → Bool
  | .paid => true
  | .adminGranted => true
  | _ => false

def PaymentData.toRow (d : PaymentData) (id : String) : PaymentRow where
  id := id
  userId := d.userId
  planId := some d.planId.name
  amount := d.amount
  currency := d.currency
  status := d.status
  method := some d.method

def PaymentRow.sample : PaymentRow :=
  { id := "p1", userId := "u", planId := some "pro", amount := 79
    method := some "stripe:cs_test_1:plan:pro:usd:25.28" }

namespace PaymentStore

private theorem sample_owner (rows : List PaymentRow) (h : ∀ p ∈ rows, p.userId = "u") :
    ∀ p ∈ rows, ∃ a ∈ SubscriptionDb.sample.users.rows, a.id = p.userId := by
  intro p hp
  exact ⟨_, List.mem_singleton_self _, (h p hp).symm⟩

/-- The user `u` has one payment. -/
def sample : PaymentStore where
  subs := .sample
  payments := ⟨[.sample], List.nodup_singleton _⟩
  owner := sample_owner [.sample] (List.forall_mem_singleton.mpr rfl)
  events := .empty
  planCatalog := none

def fresh : PaymentStore where
  subs := .sample
  payments := .empty
  owner := sample_owner [] (List.forall_mem_nil _)
  events := .empty
  planCatalog := some sampleCatalog

variable (s : PaymentStore)

section Updates

/-- The tables of the user service have changed; the payments of a deleted user go with it. -/
def withSubs (subs : SubscriptionDb) : PaymentStore where
  subs := subs
  payments := s.payments.erase fun p => (subs.users.find? p.userId).isNone
  owner := by
    intro p hp
    have hkeep := ((Table.mem_erase _ _ _).mp hp).2
    cases hfind : subs.users.find? p.userId with
    | none => simp [hfind] at hkeep
    | some a => exact ⟨a, (Table.find?_eq_some _).mp hfind⟩
  events := s.events
  planCatalog := s.planCatalog

/-- `payment.updateMany` of the status. -/
def setStatus (p : PaymentRow → Bool) (status : PaymentStatus) : PaymentStore where
  subs := s.subs
  payments := s.payments.modify p fun row => { row with status }
  owner := by
    intro row hrow
    obtain ⟨old, hold, rfl⟩ := (Table.mem_modify _ _ _ _ _).mp hrow
    obtain ⟨a, ha, hid⟩ := s.owner old hold
    refine ⟨a, ha, hid.trans ?_⟩
    split <;> rfl
  events := s.events
  planCatalog := s.planCatalog

def insertPayment (row : PaymentRow) (hid : row.id ∉ s.payments.rows.map PaymentRow.id)
    (howner : ∃ a ∈ s.subs.users.rows, a.id = row.userId) : PaymentStore where
  subs := s.subs
  payments := s.payments.insert row hid
  owner := by
    intro p hp
    rcases List.mem_append.mp hp with hp | hp
    · exact s.owner p hp
    · obtain rfl := List.mem_singleton.mp hp
      exact howner
  events := s.events
  planCatalog := s.planCatalog

def insertEvent (row : EventRow) (h : row.eventId ∉ s.events.rows.map EventRow.eventId) :
    PaymentStore := { s with events := s.events.insert row h }

def setCatalog (planCatalog : Option ManagedCatalog) : PaymentStore := { s with planCatalog }

end Updates

theorem mem_setStatus {s : PaymentStore} {p : PaymentRow → Bool} {status : PaymentStatus}
    {row : PaymentRow} : row ∈ (s.setStatus p status).payments.rows ↔
      ∃ old ∈ s.payments.rows, (if p old then { old with status } else old) = row :=
  Table.mem_modify s.payments p _ (by intro; rfl) row

theorem withSubs_payments (subs : SubscriptionDb) (h : subs.users = s.subs.users) :
    (s.withSubs subs).payments = s.payments := by
  apply Table.ext_rows
  apply List.filter_eq_self.mpr
  intro row hrow
  obtain ⟨a, ha, hid⟩ := s.owner row hrow
  have hfind : subs.users.find? row.userId = some a := by
    rw [h]
    exact (Table.find?_eq_some _).mpr ⟨ha, hid⟩
  simp [hfind]

theorem withSubs_self : s.withSubs s.subs = s := by
  have hpayments := s.withSubs_payments s.subs rfl
  cases s
  simp only [withSubs] at hpayments ⊢
  congr

def sessionPayments (sessionId : String) : List PaymentRow :=
  s.payments.rows.filter (PaymentRow.ofSession sessionId)

/-- A process of the user service runs to its end on its tables. -/
def Remote {α : Type} (p : SubscriptionProcess α) (s : PaymentStore) (out : Except Failure α)
    (s' : PaymentStore) : Prop :=
  ∃ subs, p.Ends SubscriptionCall.mayServe s.subs out subs ∧ s' = s.withSubs subs

end PaymentStore

namespace PaymentCall

open PaymentStore

/-- What is answered to a call that reaches its receiver, and the tables left behind. Stripe and
the student verification may answer anything. -/
def serve (json : PlanCatalogJson) (c : PaymentCall) (s : PaymentStore) (r : c.Answer)
    (s' : PaymentStore) : Prop :=
  match c with
  | .getPlanCatalog =>
    match s.planCatalog with
    | some catalog => r = .ok catalog ∧ s' = s
    | none => ∃ out t, Remote (UserService.getPlanCatalog json) s out t ∧ r = out ∧
        s' = t.setCatalog out.toOption
  | .studentVerification _ => (∃ verified, r = .ok verified) ∧ s' = s
  | .subscriptionAccess userId =>
    ∃ out, Remote (UserService.getPlanCatalog json) s out s' ∧
      match out, s.subs.lookup userId with
      | .ok catalog, some (a, quota) =>
        ∃ access, r = .ok access ∧ access.activePlanId =
          UserService.resolvePlanForUser a.role (quota.map UserQuota.limits) catalog
      | _, _ => ∃ e, r = .error e
  | .activate _ userId planId =>
    ∃ out, Remote (UserService.activateSubscriptionPlanFromInternal json userId planId) s out s' ∧
      match out with
      | .ok _ => r = .ok ()
      | .error e => r = .error e
  | .createSession _ => (∃ session, r = .ok session) ∧ s' = s
  | .retrieveSession _ => (∃ session, r = .ok session) ∧ s' = s
  | .createEvent eventId type =>
    (∃ h, r = .ok () ∧ s' = s.insertEvent ⟨eventId, type⟩ h) ∨
      (eventId ∈ s.events.rows.map EventRow.eventId ∧ r = .error ⟨.database, "P2002"⟩ ∧ s' = s)
  | .findStripePayments sessionId =>
    (∃ rows : List PaymentRow, rows.Perm (s.sessionPayments sessionId) ∧ r = .ok rows) ∧ s' = s
  | .markPaid ids =>
    r = .ok () ∧ s' = s.setStatus (fun p => ids.contains p.id && !p.status.settled) .paid
  | .markExpired sessionId =>
    r = .ok () ∧
      s' = s.setStatus (fun p => p.ofSession sessionId && decide (p.status = .pending)) .expired
  | .createPayment data =>
    (∃ id hid howner, r = .ok () ∧ s' = s.insertPayment (data.toRow id) hid howner) ∨
      ((∀ a ∈ s.subs.users.rows, a.id ≠ data.userId) ∧ (∃ e, r = .error e) ∧ s' = s)

/-- The call fails for a reason of its own: no unique index is involved. -/
def Broken {c : PaymentCall} (r : c.Answer) : Prop :=
  ∃ e, r = .error e ∧ PaymentService.isUniqueViolation e = false

/-- A call may also be reported as failed, whether or not it was carried out. -/
def mayServe (json : PlanCatalogJson) (c : PaymentCall) (s : PaymentStore) (r : c.Answer)
    (s' : PaymentStore) : Prop :=
  c.serve json s r s' ∨ (Broken r ∧ (s' = s ∨ ∃ r', c.serve json s r' s'))

theorem carried_of_mayServe {json : PlanCatalogJson} {c : PaymentCall} {s s' : PaymentStore}
    {r : c.Answer} (h : c.mayServe json s r s') : s' = s ∨ ∃ r', c.serve json s r' s' := by
  rcases h with h | ⟨-, h⟩
  · exact .inr ⟨r, h⟩
  · exact h

end PaymentCall

/-- A request to the user service, or an edit of the catalog; the catalog that the payment
service keeps may be dropped, or read again after an edit. -/
def PaymentStore.Changes (json : PlanCatalogJson) (s s' : PaymentStore) : Prop :=
  ∃ (q : SubscriptionRequest) (out : Except Failure SubscriptionReply) (t : PaymentStore),
    PaymentStore.Remote (q.handle json) s out t ∧
      (s' = t ∨ s' = t.setCatalog none ∨ s' = t.setCatalog (some t.subs.currentCatalog))

abbrev PaymentLog := List (Event paymentInterface)

abbrev PaymentTask := Task paymentInterface Failure PaymentReply PaymentRequest

abbrev PaymentStage := Stage paymentInterface Failure PaymentReply PaymentRequest PaymentStore

abbrev PaymentLabel := StageLabel paymentInterface PaymentRequest

def paymentServer (env : PaymentEnv) :
    Server paymentInterface Failure PaymentReply PaymentRequest PaymentStore where
  handler := PaymentRequest.handle env
  effect := fun _ _ c s r s' => c.mayServe env.json s r s'
  change := PaymentStore.Changes env.json

def PaymentRequest.event (env : PaymentEnv) : PaymentRequest → Option StripeEvent
  | .webhook rawBody stripeSignature =>
    if env.stripeConfigured then do
      let webhookSecret ← PaymentService.truthy env.webhookSecret
      let signature ← PaymentService.truthy stripeSignature
      env.constructEvent rawBody signature webhookSecret
    else none
  | _ => none

theorem PaymentRequest.handle_of_event {env : PaymentEnv} {q : PaymentRequest} {e : StripeEvent}
    (h : q.event env = some e) : q.handle env = PaymentService.handleEvent env e := by
  cases q with
  | checkout userId role planId => cases h
  | confirm userId sessionId => cases h
  | webhook rawBody stripeSignature =>
    simp only [PaymentRequest.event] at h
    split at h
    · rename_i hconfigured
      simp only [Option.bind_eq_bind, Option.bind_eq_some_iff] at h
      obtain ⟨secret, hsecret, signature, hsignature, hevent⟩ := h
      simp [PaymentRequest.handle, PaymentService.handleWebhook, hconfigured, hsecret, hsignature,
        hevent]
    · cases h

section Payments

variable {json : PlanCatalogJson} {s s' : PaymentStore}

/-- Two states of one payment: only the status may differ, and it stays settled. -/
structure PaymentRow.Same (old row : PaymentRow) : Prop where
  id : old.id = row.id
  userId : old.userId = row.userId
  planId : old.planId = row.planId
  method : old.method = row.method
  settled : old.status.settled = true → row.status.settled = true

theorem PaymentRow.Same.refl (row : PaymentRow) : row.Same row := ⟨rfl, rfl, rfl, rfl, fun h => h⟩

theorem PaymentRow.Same.trans {a b c : PaymentRow} (h : a.Same b) (h' : b.Same c) : a.Same c where
  id := h.id.trans h'.id
  userId := h.userId.trans h'.userId
  planId := h.planId.trans h'.planId
  method := h.method.trans h'.method
  settled := fun hs => h'.settled (h.settled hs)

theorem PaymentRow.Same.ofSession {old row : PaymentRow} (h : old.Same row) (sessionId : String) :
    old.ofSession sessionId = row.ofSession sessionId := by
  rw [PaymentRow.ofSession, h.method, PaymentRow.ofSession]

theorem PaymentRow.Same.plan {old row : PaymentRow} (h : old.Same row) (lower : String → String) :
    PaymentService.extractPlanFromPayment lower old =
      PaymentService.extractPlanFromPayment lower row := by
  simp only [PaymentService.extractPlanFromPayment, h.planId, h.method]

def PaymentStore.Old (s s' : PaymentStore) : Prop :=
  ∀ row ∈ s'.payments.rows, ∃ old ∈ s.payments.rows, old.Same row

theorem old_refl (s : PaymentStore) : s.Old s := fun row hrow => ⟨row, hrow, .refl row⟩

theorem old_withSubs (s : PaymentStore) (subs : SubscriptionDb) : s.Old (s.withSubs subs) := by
  intro row hrow
  exact ⟨row, ((Table.mem_erase _ _ _).mp hrow).1, .refl row⟩

theorem old_setStatus (s : PaymentStore) {p : PaymentRow → Bool} {status : PaymentStatus}
    (h : ∀ row, p row = true → row.status.settled = true → status.settled = true) :
    s.Old (s.setStatus p status) := by
  intro row hrow
  obtain ⟨old, hold, rfl⟩ := PaymentStore.mem_setStatus.mp hrow
  refine ⟨old, hold, ?_⟩
  split
  · rename_i hp
    exact ⟨rfl, rfl, rfl, rfl, h old hp⟩
  · exact .refl old

theorem old_of_serve {c : PaymentCall} {r : c.Answer} (h : c.serve json s r s')
    (hc : ∀ d, c ≠ .createPayment d) : s.Old s' := by
  cases c with
  | getPlanCatalog =>
    simp only [PaymentCall.serve] at h
    split at h
    · obtain ⟨-, rfl⟩ := h
      exact old_refl _
    · obtain ⟨out, t, ⟨subs, -, rfl⟩, -, rfl⟩ := h
      exact old_withSubs s subs
  | studentVerification userId =>
    obtain ⟨-, rfl⟩ := h
    exact old_refl _
  | subscriptionAccess userId =>
    obtain ⟨out, ⟨subs, -, rfl⟩, -⟩ := h
    exact old_withSubs s subs
  | activate payment userId planId =>
    obtain ⟨out, ⟨subs, -, rfl⟩, -⟩ := h
    exact old_withSubs s subs
  | createSession data =>
    obtain ⟨-, rfl⟩ := h
    exact old_refl _
  | retrieveSession sessionId =>
    obtain ⟨-, rfl⟩ := h
    exact old_refl _
  | createEvent eventId type =>
    rcases h with ⟨hnew, -, rfl⟩ | ⟨-, -, rfl⟩
    · exact old_refl _
    · exact old_refl _
  | findStripePayments sessionId =>
    obtain ⟨-, rfl⟩ := h
    exact old_refl _
  | markPaid ids =>
    obtain ⟨-, rfl⟩ := h
    exact old_setStatus s fun _ _ _ => rfl
  | markExpired sessionId =>
    obtain ⟨-, rfl⟩ := h
    apply old_setStatus
    intro row hp hs
    simp only [Bool.and_eq_true, decide_eq_true_eq] at hp
    rw [hp.2] at hs
    cases hs
  | createPayment data => exact (hc data rfl).elim

theorem payments_of_create {d : PaymentData} {r : (PaymentCall.createPayment d).Answer}
    (h : (PaymentCall.createPayment d).serve json s r s') {row : PaymentRow}
    (hrow : row ∈ s'.payments.rows) : row ∈ s.payments.rows ∨ ∃ id, row = d.toRow id := by
  rcases h with ⟨id, hid, howner, -, rfl⟩ | ⟨-, -, rfl⟩
  · rcases List.mem_append.mp hrow with hrow | hrow
    · exact .inl hrow
    · exact .inr ⟨id, List.mem_singleton.mp hrow⟩
  · exact .inl hrow

theorem payments_of_mayServe {c : PaymentCall} {r : c.Answer} (h : c.mayServe json s r s')
    {row : PaymentRow} (hrow : row ∈ s'.payments.rows) :
    (∃ old ∈ s.payments.rows, old.Same row) ∨
      ∃ d id, c = .createPayment d ∧ row = d.toRow id := by
  rcases PaymentCall.carried_of_mayServe h with rfl | ⟨r', h⟩
  · exact .inl ⟨row, hrow, .refl row⟩
  · by_cases hc : ∃ d, c = .createPayment d
    · obtain ⟨d, rfl⟩ := hc
      rcases payments_of_create h hrow with hold | ⟨id, hnew⟩
      · exact .inl ⟨row, hold, .refl row⟩
      · exact .inr ⟨d, id, rfl, hnew⟩
    · exact .inl (old_of_serve h (fun d he => hc ⟨d, he⟩) row hrow)

theorem found_of_mayServe {sessionId : String} {rows : List PaymentRow}
    (h : (PaymentCall.findStripePayments sessionId).mayServe json s (.ok rows) s') :
    s' = s ∧ rows.Perm (s.sessionPayments sessionId) := by
  rcases h with ⟨⟨rows', hperm, hr⟩, rfl⟩ | ⟨⟨e, he, -⟩, -⟩
  · cases hr
    exact ⟨rfl, hperm⟩
  · cases he

theorem settled_of_markPaid {ids : List String}
    (h : (PaymentCall.markPaid ids).mayServe json s (.ok ()) s') {row : PaymentRow}
    (hrow : row ∈ s'.payments.rows) (hid : row.id ∈ ids) : row.status.settled = true := by
  rcases h with ⟨-, rfl⟩ | ⟨⟨e, he, -⟩, -⟩
  · obtain ⟨old, hold, rfl⟩ := PaymentStore.mem_setStatus.mp hrow
    by_cases hs : old.status.settled = true
    · simp [hs]
    · have hold : old.id ∈ ids := by
        split at hid <;> exact hid
      have hpaid : PaymentStatus.paid.settled = true := rfl
      simp [hold, hs, hpaid]
  · cases he

end Payments

end CloudVM
