import CloudVM.Billing.Server
import CloudVM.Framework.Phases

/-!
# How a sale proceeds

A checkout reads the catalog and the plan of its user before it makes a payment. A completed
session finds its payments and marks them before it activates their plans.
-/

namespace CloudVM

open Process PaymentService

namespace Credit

section Sales

/-- How far a request has come: the catalog and the plan that a checkout has read, and the
payments that a completed session has found and marked. -/
structure Sale where
  catalog : Option ManagedCatalog := none
  active : Option (Option SubscriptionPlanId) := none
  found : List PaymentRow := []
  marked : List String := []

def Sale.advance (φ : Sale) : (c : PaymentCall) → c.Answer → Sale
  | .getPlanCatalog, .ok catalog => { φ with catalog := some catalog }
  | .subscriptionAccess _, .ok access => { φ with active := some access.activePlanId }
  | .findStripePayments _, .ok rows => { φ with found := rows, marked := [] }
  | .markPaid ids, .ok _ => { φ with marked := ids }
  | _, _ => φ

/-- A payment is made with the amount of the checkout, a plan is activated for a payment that was
marked. -/
def Sale.Permits (env : PaymentEnv) (q : PaymentRequest) (φ : Sale) : PaymentCall → Prop
  | .createPayment d => ∃ role catalog active, q = .checkout d.userId role d.planId ∧
      φ.catalog = some catalog ∧ φ.active = some active ∧ d.status = .pending ∧
      d.amount = chargeDt d.planId (upgradeFrom d.planId active catalog) catalog
  | .subscriptionAccess userId => ∃ role planId, q = .checkout userId role planId
  | .activate id userId planId => ∃ row ∈ φ.found, row.id ∈ φ.marked ∧ row.id = id ∧
      row.userId = userId ∧ extractPlanFromPayment env.lower row = some planId
  | _ => True

abbrev SaleMoves : (c : PaymentCall) → Sale → c.Answer → Sale → Prop :=
  fun c φ r φ' => True ∧ φ' = φ.advance c r

variable {env : PaymentEnv} {q : PaymentRequest}

private theorem applyPlans_sale (rows : List PaymentRow) {φ : Sale}
    (h : ∀ row ∈ rows, row ∈ φ.found ∧ row.id ∈ φ.marked) :
    (applyPlans env rows).Wp (Sale.Permits env q) SaleMoves (fun _ _ => True) φ := by
  induction rows with
  | nil => trivial
  | cons row rest ih =>
    have hrest : ∀ r ∈ rest, r ∈ φ.found ∧ r.id ∈ φ.marked :=
      fun r hr => h r (List.mem_cons_of_mem row hr)
    have htail : (applyPlans env rest >>= fun applied =>
        (pure ((extractPlanFromPayment env.lower row).toList ++ applied) :
          PaymentProcess (List SubscriptionPlanId))).Wp (Sale.Permits env q) SaleMoves
        (fun _ _ => True) φ := by
      rw [wp_bind]
      apply (ih hrest).mono
      rintro (e | applied) φ' _ <;> trivial
    simp only [applyPlans]
    rw [wp_bind]
    cases hplan : extractPlanFromPayment env.lower row with
    | none =>
      rw [hplan] at htail
      exact htail
    | some p =>
      rw [hplan] at htail
      simp only [syncQuotaForPlan]
      rw [wp_bind]
      unfold checkUserService
      split
      · trivial
      · split
        · trivial
        · obtain ⟨hfound, hmarked⟩ := h row List.mem_cons_self
          refine ⟨⟨row, hfound, hmarked, rfl, rfl, hplan⟩, ?_⟩
          rintro (e | u) φ' ⟨-, rfl⟩
          · trivial
          · exact htail

private theorem markStripeSessionAsPaid_sale (sessionId : String) (expected : Option String)
    (φ : Sale) : (markStripeSessionAsPaid env sessionId expected).Wp (Sale.Permits env q) SaleMoves
      (fun _ _ => True) φ := by
  refine ⟨trivial, ?_⟩
  rintro (e | rows) φ' ⟨-, rfl⟩
  · trivial
  change (if rows = [] then _ else _ : PaymentProcess (ℕ × List SubscriptionPlanId)).Wp _ _ _ _
  split
  · trivial
  split
  · trivial
  refine ⟨trivial, ?_⟩
  rintro (e | u) φ' ⟨-, rfl⟩
  · trivial
  change (applyPlans env rows >>= fun applied =>
    (pure (rows.length, applied) : PaymentProcess (ℕ × List SubscriptionPlanId))).Wp _ _ _ _
  rw [wp_bind]
  apply (applyPlans_sale rows _).mono
  · rintro (e | applied) φ' _ <;> trivial
  · intro row hrow
    exact ⟨hrow, List.mem_map_of_mem hrow⟩

private theorem handleEvent_sale (e : StripeEvent) (φ : Sale) :
    (handleEvent env e).Wp (Sale.Permits env q) SaleMoves (fun _ _ => True) φ := by
  refine ⟨trivial, ?_⟩
  rintro (f | u) φ' ⟨-, rfl⟩
  · dsimp only
    split <;> trivial
  · unfold processEvent
    split
    · apply (wp_bind _ _ _ _).mpr
      apply (markStripeSessionAsPaid_sale e.session none _).mono
      rintro (f | result) φ' _ <;> trivial
    · refine ⟨trivial, ?_⟩
      rintro (f | u) φ' _ <;> trivial
    · trivial

private theorem webhook_sale (rawBody : String) (signature : Option String) (φ : Sale) :
    (handleWebhook env rawBody signature).Wp (Sale.Permits env q) SaleMoves (fun _ _ => True) φ := by
  unfold handleWebhook
  split
  · trivial
  split
  · trivial
  split
  · trivial
  split
  · trivial
  · exact handleEvent_sale _ φ

private theorem confirm_sale (userId sessionId : String) (φ : Sale) :
    (confirmCheckoutSession env userId sessionId).Wp (Sale.Permits env q) SaleMoves
      (fun _ _ => True) φ := by
  unfold confirmCheckoutSession
  split
  · trivial
  split
  · trivial
  refine ⟨trivial, ?_⟩
  rintro (e | (_ | session)) φ' ⟨-, rfl⟩
  · trivial
  · trivial
  · change (confirmRetrieved env userId sessionId (some session)).Wp _ _ _ _
    simp only [confirmRetrieved]
    split
    · trivial
    split
    · trivial
    apply (wp_bind _ _ _ _).mpr
    apply (markStripeSessionAsPaid_sale sessionId (some userId) _).mono
    rintro (e | result) φ' _ <;> trivial

private theorem requireStudent_sale (userId : String) (planId : ManagedPlanId) (φ : Sale) :
    (requireStudent env userId planId).Wp (Sale.Permits env q) SaleMoves
      (fun _ φ' => φ' = φ) φ := by
  unfold requireStudent
  split
  · unfold getStudentVerification checkUserService
    split
    · rfl
    split
    · rfl
    refine ⟨trivial, ?_⟩
    rintro (e | verified) φ' ⟨-, rfl⟩
    · rfl
    · change (if verified = true then _ else _ : PaymentProcess Unit).Wp _ _ _ _
      split <;> rfl
  · rfl

private theorem snapshot_sale {userId : String}
    (hq : ∃ role planId, q = .checkout userId role planId) (φ : Sale) :
    (getSubscriptionAccessSnapshot env userId).Wp (Sale.Permits env q) SaleMoves
      (Post (fun access φ' => φ' = { φ with active := some access.activePlanId })
        fun _ φ' => φ' = φ) φ := by
  unfold getSubscriptionAccessSnapshot checkUserService
  split
  · rfl
  split
  · rfl
  refine ⟨hq, ?_⟩
  rintro (e | access) φ' ⟨-, rfl⟩
  · rfl
  · rfl

private theorem enforce_sale {userId : String}
    (hq : ∃ role planId, q = .checkout userId role planId) (requested : ManagedPlanId)
    (catalog : ManagedCatalog) (φ : Sale) :
    (enforcePlanPurchaseRules env userId requested catalog).Wp (Sale.Permits env q) SaleMoves
      (fun _ φ' => φ'.catalog = φ.catalog) φ := by
  unfold enforcePlanPurchaseRules
  rw [wp_bind]
  apply (snapshot_sale hq φ).mono
  rintro (e | access) φ' h
  · obtain rfl : φ' = φ := h
    rfl
  · obtain rfl : φ' = { φ with active := some access.activePlanId } := h
    simp only [post_ok]
    split
    · rfl
    · rfl
    split
    · rfl
    split <;> rfl

private theorem createCheckoutSession_sale (userId : String) (role : Role) (planId : ManagedPlanId)
    (φ : Sale) : (createCheckoutSession env userId role planId).Wp
      (Sale.Permits env (.checkout userId role planId)) SaleMoves (fun _ _ => True) φ := by
  have hq : ∃ role' planId', PaymentRequest.checkout userId role planId =
      .checkout userId role' planId' := ⟨role, planId, rfl⟩
  unfold createCheckoutSession createCheckoutSessionWith
  split
  · trivial
  split
  · trivial
  refine ⟨trivial, ?_⟩
  rintro (e | catalog) φ₁ ⟨-, rfl⟩
  · trivial
  apply (wp_bind _ _ _ _).mpr
  rw [wp_ofExcept]
  apply (wp_bind _ _ _ _).mpr
  apply (requireStudent_sale userId planId _).mono
  rintro (e | u) φ₂ rfl
  · trivial
  apply (wp_bind _ _ _ _).mpr
  apply (enforce_sale hq planId catalog _).mono
  rintro (e | u) φ₃ hcatalog
  · trivial
  apply (wp_bind _ _ _ _).mpr
  apply (snapshot_sale hq _).mono
  rintro (e | access) φ₄ h
  · trivial
  obtain rfl : φ₄ = { φ₃ with active := some access.activePlanId } := h
  simp only [post_ok]
  split
  · trivial
  refine ⟨trivial, ?_⟩
  rintro (e | session) φ₅ ⟨-, rfl⟩
  · trivial
  refine ⟨⟨role, catalog, access.activePlanId, rfl, hcatalog, rfl, rfl, rfl⟩, ?_⟩
  rintro (e | u) φ₆ _ <;> trivial

def sales (env : PaymentEnv) : (paymentServer env).Phased Sale where
  start := fun _ => {}
  advance := fun _ φ c r => φ.advance c r
  fits := fun _ _ => True
  permits := Sale.Permits env
  returns := fun _ _ _ => True
  sound := fun _ _ _ _ _ _ _ => trivial
  holds := by
    intro q
    have hall : (q.handle env).Wp (Sale.Permits env q) SaleMoves (fun _ _ => True) {} := by
      cases q with
      | checkout userId role planId => exact createCheckoutSession_sale userId role planId {}
      | confirm userId sessionId => exact confirm_sale userId sessionId {}
      | webhook rawBody signature => exact webhook_sale rawBody signature {}
    apply hall.mono
    rintro (e | reply) φ _ <;> trivial

end Sales

end Credit

end CloudVM
