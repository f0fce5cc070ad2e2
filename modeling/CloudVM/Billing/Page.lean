import CloudVM.Split.Sold

/-!
# The billing page

The page tells which plans can be bought, and for how much, before the payment service is asked.
It compares plans by ranks of its own; the payment service compares them by the ranks of the
catalog. Page and payment service both calculate in doubles.
-/

namespace CloudVM.BillingPage

open Process SubscriptionCall PaymentService Catalogs Doubles

section Profile

/-- `subscription` of a profile, as the user service answers it and the page reads it. -/
structure SubscriptionSnapshot where
  planId : SubscriptionPlanId
  cycleEndsAt : String
  vmHoursIncluded : Int
  vmHoursUsed : Rat
  canRenewSamePlan : Bool
deriving DecidableEq, Repr

/-- `x.toFixed(4)` of a number that is not negative, before it is read as a double. -/
def toFixed4 (x : Rat) : Rat := PaymentService.round (x * 10000) / 10000

/-- The part of `getInternalSubscriptionAccess` after the profile is read. -/
def getInternalSubscriptionAccess : Option SubscriptionSnapshot → SubscriptionAccess
  | none => { activePlanId := none, canPurchaseSameOrLower := true, usageRatio := 0 }
  | some subscription =>
    if subscription.planId = .unlimited then
      { activePlanId := some .unlimited, canPurchaseSameOrLower := false, usageRatio := 1 }
    else
      { activePlanId := some subscription.planId
        canPurchaseSameOrLower := subscription.canRenewSamePlan
        usageRatio := if 0 < subscription.vmHoursIncluded then
          double (toFixed4 (double (subscription.vmHoursUsed / subscription.vmHoursIncluded)))
        else 0
        cycleEndsAt := some subscription.cycleEndsAt }

end Profile

section Page

/-- `planRank` of the page. -/
def planRank : SubscriptionPlanId → Int
  | .managed .student => 1
  | .managed .pro => 2
  | .managed .enterprise => 3
  | .unlimited => 99

/-- `plans`, as `GET /payments/plans` answers it. -/
def publicPlans (catalog : ManagedCatalog) : List PublicPlan :=
  (requiredPlanIds.map (toPublicPlan catalog)).mergeSort fun a b => a.rank ≤ b.rank

theorem getPublicPlans_eq (env : PaymentEnv) :
    getPublicPlans env =
      Catalogs.getPlanCatalog env >>= fun catalog => pure (publicPlans catalog) := rfl

variable (profile : Option SubscriptionSnapshot)

/-- The names of plans are in lower case already, so `trim` and `toLowerCase` change nothing. -/
def activePlan : Option SubscriptionPlanId := profile.map SubscriptionSnapshot.planId

def canRenewSamePlan : Bool := (profile.map SubscriptionSnapshot.canRenewSamePlan).getD true

def isPlanSelectable (planId : ManagedPlanId) : Bool :=
  match activePlan profile with
  | none => true
  | some .unlimited => true
  | some active =>
    if planRank active < planRank (.managed planId) then true else canRenewSamePlan profile

def getDisplayedPlanAmount (plans : List PublicPlan) (plan : PublicPlan) : Rat :=
  match activePlan profile with
  | none => plan.amountDt
  | some .unlimited => plan.amountDt
  | some (.managed active) =>
    match plans.find? fun p => p.id = active with
    | none => plan.amountDt
    | some currentPlan =>
      if planRank (.managed active) < planRank (.managed plan.id) then
        max 0 (double (toFixed2 (double (plan.amountDt - currentPlan.amountDt))))
      else plan.amountDt

theorem find?_publicPlans (catalog : ManagedCatalog) (p : ManagedPlanId) :
    (publicPlans catalog).find? (fun plan => plan.id = p) = some (toPublicPlan catalog p) := by
  have hmem : ∀ plan, plan ∈ publicPlans catalog ↔ ∃ q, toPublicPlan catalog q = plan := by
    simp [publicPlans]
  cases h : (publicPlans catalog).find? fun plan => plan.id = p with
  | none =>
    have hnot := List.find?_eq_none.mp h (toPublicPlan catalog p) ((hmem _).mpr ⟨p, rfl⟩)
    simp [toPublicPlan] at hnot
  | some plan =>
    obtain ⟨q, rfl⟩ := (hmem plan).mp (List.mem_of_find?_eq_some h)
    have hfound := List.find?_some h
    simp only [decide_eq_true_eq] at hfound
    have hq : q = p := hfound
    rw [hq]

def shownAmount (catalog : ManagedCatalog) (p : ManagedPlanId) : Rat :=
  getDisplayedPlanAmount profile (publicPlans catalog) (toPublicPlan catalog p)

variable {profile}

theorem shownAmount_none (h : activePlan profile = none) (catalog : ManagedCatalog)
    (p : ManagedPlanId) : shownAmount profile catalog p = (catalog p).monthlyPriceDt := by
  simp only [shownAmount, getDisplayedPlanAmount, h]
  rfl

theorem shownAmount_managed {active : ManagedPlanId}
    (h : activePlan profile = some (.managed active)) (catalog : ManagedCatalog)
    (p : ManagedPlanId) : shownAmount profile catalog p =
      if planRank (.managed active) < planRank (.managed p) then
        max 0 (double (toFixed2
          (double ((catalog p).monthlyPriceDt - (catalog active).monthlyPriceDt))))
      else (catalog p).monthlyPriceDt := by
  simp only [shownAmount, getDisplayedPlanAmount, h, find?_publicPlans]
  rfl

end Page

section Checkout

/-- What Stripe, the tables and the student verification answer during one checkout. -/
structure CheckoutWorld where
  verified : Bool
  session : Except Failure CreatedSession
  recorded : Except Failure Unit

def CheckoutWorld.sold : CheckoutWorld where
  verified := true
  session := .ok ⟨"cs_test_1", none⟩
  recorded := .ok ()

/-- What a checkout asks Stripe for, and the payments that it records. -/
structure Bill where
  sessions : List SessionData := []
  payments : List PaymentData := []

/-- The catalog and the subscription stay what they are while the checkout runs. -/
def answer (catalog : ManagedCatalog) (profile : Option SubscriptionSnapshot)
    (world : CheckoutWorld) : (c : PaymentCall) → Bill → c.Answer × Bill
  | .getPlanCatalog, bill => (.ok catalog, bill)
  | .studentVerification _, bill => (.ok world.verified, bill)
  | .subscriptionAccess _, bill => (.ok (getInternalSubscriptionAccess profile), bill)
  | .createSession data, bill => (world.session, { bill with sessions := bill.sessions ++ [data] })
  | .createPayment data, bill => (world.recorded, { bill with payments := bill.payments ++ [data] })
  | .activate _ _ _, bill => (.error ⟨.other, ""⟩, bill)
  | .retrieveSession _, bill => (.error ⟨.other, ""⟩, bill)
  | .createEvent _ _, bill => (.error ⟨.other, ""⟩, bill)
  | .findStripePayments _, bill => (.error ⟨.other, ""⟩, bill)
  | .markPaid _, bill => (.error ⟨.other, ""⟩, bill)
  | .markExpired _, bill => (.error ⟨.other, ""⟩, bill)

/-- The settings without which the payment service sells nothing. -/
structure Sells (env : PaymentEnv) : Prop where
  stripe : env.stripeConfigured = true
  url : env.userServiceUrl ≠ ""
  token : env.interServiceSyncToken ≠ ""
  rate : env.usdPerTndRate.isSome = true

variable (env : PaymentEnv) (catalog : ManagedCatalog) (profile : Option SubscriptionSnapshot)

/-- `enforcePlanPurchaseRules` lets the plan pass. -/
def Accepts (world : CheckoutWorld) (userId : String) (p : ManagedPlanId) : Prop :=
  ((enforcePlanPurchaseRules env userId p catalog).exec
    (answer catalog profile world) {}).1 = .ok ()

def bill (world : CheckoutWorld) (userId : String) (p : ManagedPlanId) : Bill :=
  ((createCheckoutSessionWith env double userId .user p).exec (answer catalog profile world) {}).2

/-- The page offers the plan exactly when it may be bought, and every session that Stripe is asked
for and every payment that is recorded is for the amount on the page. -/
def ShownAsEnforced (p : ManagedPlanId) : Prop :=
  ∀ world userId,
    (isPlanSelectable profile p = true ↔ Accepts env catalog profile world userId p) ∧
    (∀ data ∈ (bill env catalog profile world userId p).payments,
      data.amount = shownAmount profile catalog p) ∧
    ∀ data ∈ (bill env catalog profile world userId p).sessions, ∀ rate,
      env.usdPerTndRate = some rate →
        data.unitAmount =
          PaymentService.round (double (usdAmountWith double (shownAmount profile catalog p) rate * 100))

/-- The page and the catalog agree on whether a plan is above the active one. -/
def SameOrder (active p : ManagedPlanId) : Prop :=
  planRank (.managed active) < planRank (.managed p) ↔ (catalog active).rank < (catalog p).rank

/-- The price is a whole number of hundredths, as far as a double can be, and with the price of the
active plan taken off these are still the nearest. -/
def Unreduced (active p : ManagedPlanId) : Prop :=
  ∃ n : Int, (catalog p).monthlyPriceDt = double (n / 100) ∧
    (n / 100 - 1 / 200 : Rat) ≤ double ((catalog p).monthlyPriceDt - (catalog active).monthlyPriceDt) ∧
    double ((catalog p).monthlyPriceDt - (catalog active).monthlyPriceDt) < n / 100 + 1 / 200

def Agreed (p : ManagedPlanId) : Prop :=
  match activePlan profile with
  | none => True
  | some .unlimited => False
  | some (.managed active) =>
    SameOrder catalog active p ∨ (canRenewSamePlan profile = true ∧ Unreduced catalog active p)

end Checkout

section Prices

/-- What is left of a price is the price again only if they have the same number of hundredths. -/
theorem max_toFixed2_eq_iff {x left : Rat} (hx : 0 < x) :
    max 0 (double (toFixed2 left)) = x ↔
      ∃ n : Int, x = double (n / 100) ∧ (n / 100 - 1 / 200 : Rat) ≤ left ∧ left < n / 100 + 1 / 200 := by
  constructor
  · intro h
    have hfixed : double (toFixed2 left) = x := by
      rcases max_choice 0 (double (toFixed2 left)) with h0 | h0
      · rw [h0] at h
        linarith
      · rw [← h0, h]
    have hleft : ¬ left < 0 := by
      -- a negative amount cannot be rounded to a positive price
      intro hneg
      have hround : 0 ≤ PaymentService.round (-left * 100) := by
        change 0 ≤ ⌊-left * 100 + 1 / 2⌋
        rw [Int.le_floor]
        push_cast
        linarith
      have hnonpos : toFixed2 left ≤ 0 := by
        have hcast : (0 : Rat) ≤ PaymentService.round (-left * 100) := by exact_mod_cast hround
        simp only [toFixed2, hundredths, if_pos hneg]
        push_cast
        linarith
      have hdouble := nearest_nonpos (p := 53) hnonpos
      linarith
    refine ⟨PaymentService.round (left * 100), ?_, ?_⟩
    · rw [← hfixed, toFixed2, hundredths, if_neg hleft]
    · obtain ⟨hlow, hhigh⟩ := Int.floor_eq_iff.mp
        (show ⌊left * 100 + 1 / 2⌋ = PaymentService.round (left * 100) from rfl)
      constructor <;> linarith
  · rintro ⟨n, hprice, hlow, hhigh⟩
    have hn : (1 : Rat) ≤ n := by
      have hpos : 0 < n := by
        by_contra hnot
        have hcast : (n : Rat) ≤ 0 := by exact_mod_cast not_lt.mp hnot
        have hdouble := nearest_nonpos (p := 53) (x := (n : Rat) / 100) (by linarith)
        linarith
      exact_mod_cast hpos
    have hround : PaymentService.round (left * 100) = n := by
      change ⌊left * 100 + 1 / 2⌋ = n
      rw [Int.floor_eq_iff]
      constructor <;> linarith
    have hleft : ¬ left < 0 := by linarith
    rw [toFixed2, hundredths, if_neg hleft, hround, ← hprice, max_eq_right hx.le]

end Prices

section Verdicts

variable {env : PaymentEnv} {catalog : ManagedCatalog} {profile : Option SubscriptionSnapshot}
  {world : CheckoutWorld} {userId : String} {p active : ManagedPlanId}

/-- The user service names the plan that the page takes for active. -/
theorem activePlanId_access (profile : Option SubscriptionSnapshot) :
    (getInternalSubscriptionAccess profile).activePlanId = activePlan profile := by
  cases profile with
  | none => rfl
  | some subscription =>
    simp only [getInternalSubscriptionAccess, activePlan, Option.map_some]
    split
    · rename_i h
      rw [h]
    · rfl

theorem canPurchase_access (h : activePlan profile = some (.managed active)) :
    (getInternalSubscriptionAccess profile).canPurchaseSameOrLower = canRenewSamePlan profile := by
  cases profile with
  | none => cases h
  | some subscription =>
    have hplan : subscription.planId = .managed active := by simpa [activePlan] using h
    simp [getInternalSubscriptionAccess, canRenewSamePlan, hplan]

theorem exec_checkUserService (henv : Sells env) (s : Bill) :
    (checkUserService env).exec (answer catalog profile world) s = (.ok (), s) := by
  simp only [checkUserService, if_neg henv.url, if_neg henv.token]
  rfl

theorem exec_getSubscriptionAccessSnapshot (henv : Sells env) (s : Bill) :
    (getSubscriptionAccessSnapshot env userId).exec (answer catalog profile world) s =
      (.ok (getInternalSubscriptionAccess profile), s) := by
  simp only [getSubscriptionAccessSnapshot, exec_bind, exec_checkUserService henv]
  rfl

theorem accepts_none (henv : Sells env) (h : activePlan profile = none) :
    Accepts env catalog profile world userId p := by
  simp only [Accepts, enforcePlanPurchaseRules, exec_bind,
    exec_getSubscriptionAccessSnapshot henv, activePlanId_access, h]
  rfl

theorem not_accepts_unlimited (henv : Sells env) (h : activePlan profile = some .unlimited) :
    ¬ Accepts env catalog profile world userId p := by
  simp only [Accepts, enforcePlanPurchaseRules, exec_bind,
    exec_getSubscriptionAccessSnapshot henv, activePlanId_access, h]
  intro hok
  cases hok

/-- A plan passes when the catalog has it above the active one, or when any plan may be bought. -/
theorem accepts_managed (henv : Sells env) (h : activePlan profile = some (.managed active)) :
    Accepts env catalog profile world userId p ↔
      (catalog active).rank < (catalog p).rank ∨ canRenewSamePlan profile = true := by
  simp only [Accepts, enforcePlanPurchaseRules, exec_bind,
    exec_getSubscriptionAccessSnapshot henv, activePlanId_access, h, getPlanRank,
    canPurchase_access h]
  split
  · rename_i hrank
    exact ⟨fun _ => .inl hrank, fun _ => rfl⟩
  · rename_i hrank
    split
    · rename_i hrenew
      exact ⟨fun _ => .inr hrenew, fun _ => rfl⟩
    · rename_i hrenew
      exact ⟨fun hok => (by cases hok), fun hor => (hor.elim hrank hrenew).elim⟩

theorem chargeDt_managed (p active : ManagedPlanId) (catalog : ManagedCatalog) :
    chargeDtWith double p (upgradeFrom p (some (.managed active)) catalog) catalog =
      if (catalog active).rank < (catalog p).rank then
        max 0 (double (toFixed2
          (double ((catalog p).monthlyPriceDt - (catalog active).monthlyPriceDt))))
      else (catalog p).monthlyPriceDt := by
  simp only [upgradeFrom]
  split <;> rfl

theorem exec_enforcePlanPurchaseRules (henv : Sells env) (s : Bill) :
    ((enforcePlanPurchaseRules env userId p catalog).exec
      (answer catalog profile world) s).2 = s := by
  simp only [enforcePlanPurchaseRules, exec_bind, exec_getSubscriptionAccessSnapshot henv]
  split
  · rfl
  · rfl
  · split
    · rfl
    · split <;> rfl

theorem exec_requireStudent (henv : Sells env) (s : Bill) :
    (requireStudent env userId p).exec (answer catalog profile world) s =
      (if p = .student ∧ world.verified = false then
        .error ⟨.forbidden,
          "Student email verification is required before purchasing the Student plan."⟩
      else .ok (), s) := by
  by_cases hp : p = .student
  · cases hverified : world.verified with
    | false =>
      simp [requireStudent, hp, getStudentVerification, exec_checkUserService henv, answer, fetched,
        hverified]
    | true =>
      simp [requireStudent, hp, getStudentVerification, exec_checkUserService henv, answer, fetched,
        hverified]
  · simp [requireStudent, hp]

/-- What a checkout leaves behind once the rules have let the plan pass. -/
def checkoutBill (env : PaymentEnv) (catalog : ManagedCatalog)
    (profile : Option SubscriptionSnapshot) (world : CheckoutWorld) (userId : String)
    (p : ManagedPlanId) (rate : Rat) : Bill :=
  ((openCheckoutWith env double userId p (upgradeFrom p (activePlan profile) catalog) catalog
    rate).exec (answer catalog profile world) {}).2

theorem bill_of_accepts (henv : Sells env) {rate : Rat} (hrate : env.usdPerTndRate = some rate)
    (hverified : ¬ (p = .student ∧ world.verified = false))
    (h : Accepts env catalog profile world userId p) :
    bill env catalog profile world userId p =
      checkoutBill env catalog profile world userId p rate := by
  have hrules : (enforcePlanPurchaseRules env userId p catalog).exec
      (answer catalog profile world) {} = (.ok (), {}) :=
    Prod.ext h (exec_enforcePlanPurchaseRules henv {})
  simp only [bill, createCheckoutSessionWith, henv.stripe, Bool.not_true, Bool.false_eq_true, if_false,
    reduceCtorEq, exec_bind, PaymentService.getPlanCatalog, exec_call, answer, exec_ofExcept,
    exec_requireStudent henv, if_neg hverified, hrules, exec_getSubscriptionAccessSnapshot henv,
    hrate, activePlanId_access]
  rfl

theorem bill_cases (henv : Sells env) {rate : Rat} (hrate : env.usdPerTndRate = some rate) :
    bill env catalog profile world userId p = {} ∨
      (Accepts env catalog profile world userId p ∧
        bill env catalog profile world userId p =
          checkoutBill env catalog profile world userId p rate) := by
  by_cases hverified : p = .student ∧ world.verified = false
  · left
    simp only [bill, createCheckoutSessionWith, henv.stripe, Bool.not_true, Bool.false_eq_true,
      if_false, reduceCtorEq, exec_bind, PaymentService.getPlanCatalog, exec_call, answer,
      exec_ofExcept, exec_requireStudent henv, if_pos hverified]
  · by_cases h : Accepts env catalog profile world userId p
    · exact .inr ⟨h, bill_of_accepts henv hrate hverified h⟩
    · left
      cases hrules : (enforcePlanPurchaseRules env userId p catalog).exec
        (answer catalog profile world) {} with
      | mk r s =>
        have hs : ((enforcePlanPurchaseRules env userId p catalog).exec
            (answer catalog profile world) {}).2 = {} := exec_enforcePlanPurchaseRules henv {}
        rw [hrules] at hs
        cases r with
        | ok u => exact absurd (congrArg Prod.fst hrules) h
        | error e =>
          simp only [bill, createCheckoutSessionWith, henv.stripe, Bool.not_true, Bool.false_eq_true,
            if_false, reduceCtorEq, exec_bind, PaymentService.getPlanCatalog, exec_call, answer,
            exec_ofExcept, exec_requireStudent henv, if_neg hverified, hrules]
          exact hs

/-- The one session is for the amount charged. -/
theorem checkoutBill_sessions (rate : Rat) :
    (checkoutBill env catalog profile world userId p rate).sessions =
      [sessionDataWith env double userId p (upgradeFrom p (activePlan profile) catalog) catalog
        rate] := by
  simp only [checkoutBill, openCheckoutWith, exec_bind, exec_call, answer, exec_ofExcept,
    List.nil_append]
  cases world.session with
  | error e => rfl
  | ok session => cases world.recorded <;> rfl

/-- So is the payment, recorded when Stripe has opened the session. -/
theorem checkoutBill_payments (rate : Rat) :
    (checkoutBill env catalog profile world userId p rate).payments.map PaymentData.amount =
      match world.session with
      | .ok _ => [chargeDtWith double p (upgradeFrom p (activePlan profile) catalog) catalog]
      | .error _ => [] := by
  simp only [checkoutBill, openCheckoutWith, exec_bind, exec_call, answer, exec_ofExcept,
    List.nil_append]
  cases world.session with
  | error e => rfl
  | ok session => cases world.recorded <;> rfl

/-- The page is right about a plan when it tells what the rules say, and the amount charged. -/
theorem shownAsEnforced_iff (henv : Sells env) :
    ShownAsEnforced env catalog profile p ↔
      (∀ world userId, isPlanSelectable profile p = true ↔
        Accepts env catalog profile world userId p) ∧
      (isPlanSelectable profile p = true → shownAmount profile catalog p =
        chargeDtWith double p (upgradeFrom p (activePlan profile) catalog) catalog) := by
  obtain ⟨rate, hrate⟩ := Option.isSome_iff_exists.mp henv.rate
  constructor
  · intro h
    refine ⟨fun world userId => (h world userId).1, ?_⟩
    intro hselectable
    have haccepts : Accepts env catalog profile .sold "" p := (h .sold "").1.mp hselectable
    have hbill : bill env catalog profile .sold "" p =
        checkoutBill env catalog profile .sold "" p rate :=
      bill_of_accepts henv hrate (by simp [CheckoutWorld.sold]) haccepts
    have hpaid : (bill env catalog profile .sold "" p).payments.map PaymentData.amount =
        [chargeDtWith double p (upgradeFrom p (activePlan profile) catalog) catalog] := by
      rw [hbill, checkoutBill_payments]
      rfl
    have hmem : chargeDtWith double p (upgradeFrom p (activePlan profile) catalog) catalog ∈
        (bill env catalog profile .sold "" p).payments.map PaymentData.amount := by
      rw [hpaid]
      exact List.mem_singleton_self _
    obtain ⟨data, hdata, hamount⟩ := List.mem_map.mp hmem
    rw [← hamount, (h .sold "").2.1 data hdata]
  · rintro ⟨hrules, hamount⟩
    intro world userId
    refine ⟨hrules world userId, ?_⟩
    rcases bill_cases henv hrate with hbill | ⟨haccepts, hbill⟩
    · rw [hbill]
      exact ⟨by simp, by simp⟩
    · have hshown := hamount ((hrules world userId).mpr haccepts)
      rw [hbill, hshown]
      constructor
      · intro data hdata
        have hpaid := List.mem_map_of_mem (f := PaymentData.amount) hdata
        rw [checkoutBill_payments] at hpaid
        cases hsession : world.session with
        | error e => simp [hsession] at hpaid
        | ok session => simpa [hsession] using hpaid
      · intro data hdata rate' hrate'
        rw [checkoutBill_sessions, List.mem_singleton] at hdata
        cases hrate.symm.trans hrate'
        rw [hdata]
        rfl

theorem isPlanSelectable_managed (h : activePlan profile = some (.managed active)) :
    isPlanSelectable profile p = true ↔
      planRank (.managed active) < planRank (.managed p) ∨ canRenewSamePlan profile = true := by
  simp only [isPlanSelectable, h]
  split
  · rename_i hrank
    exact ⟨fun _ => .inl hrank, fun _ => rfl⟩
  · rename_i hrank
    exact ⟨.inr, fun hor => hor.resolve_left hrank⟩

/-- Two comparisons that each let a plan pass and reduce its price, with a permission `renew` that
lets it pass as well. -/
private theorem comparisons_agree_iff (above above' renew : Prop) [Decidable above]
    [Decidable above'] (reduced full : Rat) :
    ((above ∨ renew ↔ above' ∨ renew) ∧ (above ∨ renew →
      (if above then reduced else full) = if above' then reduced else full)) ↔
      (above ↔ above') ∨ (renew ∧ reduced = full) := by
  by_cases h : above
  · by_cases h' : above'
    · simp [h, h']
    · simp [h, h']
  · by_cases h' : above'
    · by_cases hrenew : renew
      · simp [h, h', hrenew, eq_comm]
      · simp [h, h', hrenew]
    · simp [h, h']

/-- With plans that all cost something, the page is right exactly when it agrees with the
catalog. -/
theorem shownAsEnforced_iff_agreed (henv : Sells env) (hcat : ∀ q, 0 < (catalog q).monthlyPriceDt)
    (p : ManagedPlanId) : ShownAsEnforced env catalog profile p ↔ Agreed catalog profile p := by
  rw [shownAsEnforced_iff henv]
  unfold Agreed
  cases hactive : activePlan profile with
  | none =>
    have hselectable : isPlanSelectable profile p = true := by simp [isPlanSelectable, hactive]
    refine ⟨fun _ => trivial, fun _ => ⟨?_, ?_⟩⟩
    · intro world userId
      exact iff_of_true hselectable (accepts_none henv hactive)
    · intro _
      exact shownAmount_none hactive catalog p
  | some plan =>
    cases plan with
    | unlimited =>
      have hselectable : isPlanSelectable profile p = true := by simp [isPlanSelectable, hactive]
      refine ⟨fun h => ?_, False.elim⟩
      exact not_accepts_unlimited henv hactive ((h.1 .sold "").mp hselectable)
    | managed active =>
      have hagree := comparisons_agree_iff
        (planRank (.managed active) < planRank (.managed p))
        ((catalog active).rank < (catalog p).rank) (canRenewSamePlan profile = true)
        (max 0 (double (toFixed2
          (double ((catalog p).monthlyPriceDt - (catalog active).monthlyPriceDt)))))
        (catalog p).monthlyPriceDt
      rw [max_toFixed2_eq_iff (hcat p)] at hagree
      have hrules : (∀ world userId, isPlanSelectable profile p = true ↔
          Accepts env catalog profile world userId p) ↔
          (planRank (.managed active) < planRank (.managed p) ∨ canRenewSamePlan profile = true ↔
            (catalog active).rank < (catalog p).rank ∨ canRenewSamePlan profile = true) := by
        constructor
        · intro h
          rw [← isPlanSelectable_managed hactive, h .sold "", accepts_managed henv hactive]
        · intro h world userId
          rw [isPlanSelectable_managed hactive, h, accepts_managed henv hactive]
      rw [hrules, isPlanSelectable_managed hactive, shownAmount_managed hactive, chargeDt_managed]
      exact hagree

end Verdicts

section Catalogs

/-- The tables that loads and edits of the catalog can leave, starting without any plan. -/
inductive Administered (json : PlanCatalogJson) : SubscriptionDb → Prop where
  | fresh {s} (h : s.plans = Table.empty) : Administered json s
  | load {s out t} (hs : Administered json s)
      (h : (UserService.getPlanCatalog json).Ends mayServe s out t) : Administered json t
  | edit {s actorRole planId payload out t} (hs : Administered json s)
      (h : ((SubscriptionRequest.updatePlan actorRole planId payload).handle json).Ends mayServe s
        out t) : Administered json t

/-- A catalog that the payment service can have loaded. -/
def Offered (json : PlanCatalogJson) (catalog : ManagedCatalog) : Prop :=
  ∃ s t, Administered json s ∧ (UserService.getPlanCatalog json).Ends mayServe s (.ok catalog) t

/-- The calls that can write a plan: a seed from the environment, and an edit that is valid. -/
def Sourced (json : PlanCatalogJson) : SubscriptionCall → Prop
  | .createPlans data => loadManagedSubscriptionCatalogFromEnv json = .ok data
  | .updatePlan _ payload => payload.valid = true
  | _ => True

def Priced (rows : List PlanConfigRow) : Prop := ∀ row ∈ rows, 0 < row.amountDt

variable {json : PlanCatalogJson}

theorem sourced_of_reading {c : SubscriptionCall} (h : Reading json c) : Sourced json c := by
  cases c with
  | createPlans data => exact h
  | updatePlan planId payload => exact h.elim
  | _ => trivial

theorem sourced_getPlanCatalog : (UserService.getPlanCatalog json).Only (Sourced json) :=
  reading_getPlanCatalog.mono fun _ => sourced_of_reading

theorem sourced_updatePlan (actorRole : Option Role) (planId : String) (payload : UpdatePlanDto) :
    ((SubscriptionRequest.updatePlan actorRole planId payload).handle json).Only
      (Sourced json) := by
  simp only [SubscriptionRequest.handle]
  split
  · rename_i hvalid
    apply only_bind
    · unfold UserService.assertAdminRole
      split <;> trivial
    · intro _
      cases ManagedPlanId.ofName? planId with
      | none => trivial
      | some normalizedId =>
        apply only_bind (only_request trivial)
        intro found
        cases found with
        | none => trivial
        | some existing =>
          change (if payload = {} then _ else _ : SubscriptionProcess SubscriptionReply).Only _
          split
          · trivial
          · apply only_bind
            · exact only_request hvalid
            · intro updated
              exact only_bind sourced_getPlanCatalog fun _ => trivial
  · exact True.intro

private theorem mem_of_mapM_ok {α β ε : Type} {f : α → Except ε β} {xs : List α} {ys : List β}
    (h : xs.mapM f = .ok ys) {y : β} (hy : y ∈ ys) : ∃ x ∈ xs, f x = .ok y := by
  induction xs generalizing ys with
  | nil =>
    cases h
    cases hy
  | cons x xs ih =>
    rw [List.mapM_cons] at h
    cases hx : f x with
    | error e =>
      rw [hx] at h
      cases h
    | ok z =>
      cases hxs : xs.mapM f with
      | error e =>
        rw [hx, hxs] at h
        cases h
      | ok zs =>
        rw [hx, hxs] at h
        cases h
        rcases List.mem_cons.mp hy with rfl | hy
        · exact ⟨x, List.mem_cons_self, hx⟩
        · obtain ⟨x', hx', hf⟩ := ih hxs hy
          exact ⟨x', List.mem_cons_of_mem x hx', hf⟩

private theorem mem_of_mapM_some {α β : Type} {f : α → Option β} {xs : List α} {ys : List β}
    (h : xs.mapM f = some ys) {y : β} (hy : y ∈ ys) : ∃ x ∈ xs, f x = some y := by
  induction xs generalizing ys with
  | nil =>
    cases h
    cases hy
  | cons x xs ih =>
    rw [List.mapM_cons] at h
    cases hx : f x with
    | none =>
      rw [hx] at h
      cases h
    | some z =>
      cases hxs : xs.mapM f with
      | none =>
        rw [hx, hxs] at h
        cases h
      | some zs =>
        rw [hx, hxs] at h
        cases h
        rcases List.mem_cons.mp hy with rfl | hy
        · exact ⟨x, List.mem_cons_self, hx⟩
        · obtain ⟨x', hx', hf⟩ := ih hxs hy
          exact ⟨x', List.mem_cons_of_mem x hx', hf⟩

theorem priced_seed {data : List PlanData} {rows : List PlanConfigRow}
    (hdata : loadManagedSubscriptionCatalogFromEnv json = .ok data)
    (hrows : data.mapM PlanData.row = some rows) : Priced rows := by
  intro row hrow
  obtain ⟨d, hd, hconv⟩ := mem_of_mapM_some hrows hrow
  have hamount : row.amountDt = d.amountDt := by
    simp only [PlanData.row, Option.bind_eq_bind, Option.bind_eq_some_iff] at hconv
    obtain ⟨_, -, _, -, _, -, _, -, _, -, _, -, hd⟩ := hconv
    cases hd
    rfl
  rw [hamount]
  cases json with
  | unset => cases hdata
  | malformed => cases hdata
  | record plans =>
    obtain ⟨p, -, hp⟩ := mem_of_mapM_ok hdata hd
    unfold seedPlan at hp
    split at hp
    · cases hp
    · rename_i cfg _
      split at hp
      · cases hp
      · rename_i checked hcheck
        cases hp
        simp only [SeedPlan.check, Option.bind_eq_bind, Option.bind_eq_some_iff,
          Option.filter_eq_some_iff] at hcheck
        obtain ⟨amount, ⟨-, hpos⟩, _, -, _, -, _, -, _, -, _, -, _, -, _, -, hd⟩ := hcheck
        cases hd
        simpa using hpos

theorem priced_patch {payload : UpdatePlanDto} {old row : PlanConfigRow}
    (hvalid : payload.valid = true) (hold : 0 < old.amountDt) (h : payload.patch old = some row) :
    0 < row.amountDt := by
  have hamount : row.amountDt = payload.amountDt.getD old.amountDt := by
    simp only [UpdatePlanDto.patch, Option.bind_eq_bind, Option.bind_eq_some_iff] at h
    obtain ⟨_, -, _, -, _, -, _, -, _, -, hrow⟩ := h
    cases hrow
    rfl
  rw [hamount]
  cases hnew : payload.amountDt with
  | none => exact hold
  | some amount =>
    simp only [UpdatePlanDto.valid, Bool.and_eq_true, hnew, Option.all_some, decide_eq_true_eq]
      at hvalid
    have hle : (1 : Rat) / 100 ≤ amount := by tauto
    simp only [Option.getD_some]
    linarith

theorem priced_insertPlans {plans : PlanTable} {rows : List PlanConfigRow}
    (hplans : Priced plans.rows) (hrows : Priced rows) : Priced (insertPlans plans rows).rows := by
  induction rows generalizing plans with
  | nil => exact hplans
  | cons row rows ih =>
    have hrest : Priced rows := fun r hr => hrows r (List.mem_cons_of_mem row hr)
    unfold insertPlans
    split
    · exact ih hplans hrest
    · apply ih _ hrest
      intro r hr
      rcases List.mem_append.mp hr with hr | hr
      · exact hplans r hr
      · rw [List.mem_singleton.mp hr]
        exact hrows row List.mem_cons_self

/-- A call with such a source leaves only plans that cost something. -/
theorem priced_mayServe {c : SubscriptionCall} {s t : SubscriptionDb} {r : c.Answer}
    (hc : Sourced json c) (hs : Priced s.plans.rows) (h : c.mayServe s r t) :
    Priced t.plans.rows := by
  rcases carried_of_mayServe h with rfl | ⟨r', h⟩
  · exact hs
  · rcases plans_of_serve h with hplans | ⟨data, rows, rfl, hrows, hplans⟩ |
      ⟨planId, payload, old, row, rfl, hold, hpatch, hplans⟩
    · rw [hplans]
      exact hs
    · rw [hplans]
      exact priced_insertPlans hs (priced_seed hc hrows)
    · rw [hplans]
      intro x hx
      rcases s.plans.mem_upsert hx with rfl | ⟨hx, -⟩
      · exact priced_patch hc (hs old ((s.plans.find?_eq_some).mp hold).1) hpatch
      · exact hs x hx

theorem priced_of_ends {α : Type} {p : SubscriptionProcess α} {s t : SubscriptionDb}
    {out : Except Failure α} (hp : p.Only (Sourced json)) (h : p.Ends mayServe s out t)
    (hs : Priced s.plans.rows) : Priced t.plans.rows := by
  have hkeeps : p.Keeps (fun _ _ => True) mayServe fun s => Priced s.plans.rows := by
    apply hp.keeps
    · intro _ _ _
      trivial
    · intro c s r t hc hs hserve
      exact priced_mayServe hc hs hserve
  exact (hkeeps s hs).ends h

/-- Whatever is loaded and edited, every plan costs something. -/
theorem priced_of_administered {s : SubscriptionDb} (h : Administered json s) :
    Priced s.plans.rows := by
  induction h with
  | fresh hempty =>
    rw [hempty]
    intro row hrow
    cases hrow
  | load hs hends ih => exact priced_of_ends sourced_getPlanCatalog hends ih
  | edit hs hends ih => exact priced_of_ends (sourced_updatePlan _ _ _) hends ih

private theorem priced_findPlans {s : SubscriptionDb} (hs : Priced s.plans.rows) :
    UserService.findPlans.Wp (fun _ _ => True) mayServe
      (Post (fun rows t => Priced rows ∧ Priced t.plans.rows) fun _ t => Priced t.plans.rows)
      s := by
  refine ⟨trivial, ?_⟩
  intro r t h
  rw [wp_ofExcept]
  have hsourced : Sourced .unset .findPlans := trivial
  have ht : Priced t.plans.rows := priced_mayServe hsourced hs h
  cases r with
  | error e => exact ht
  | ok rows =>
    rcases h with ⟨rows', hperm, -, hrows, rfl⟩ | ⟨⟨e, he⟩, -⟩
    · cases hrows
      exact ⟨fun row hrow => hs row (hperm.mem_iff.mp hrow), ht⟩
    · cases he

theorem priced_catalog {rows : List PlanConfigRow} {catalog : ManagedCatalog} (hrows : Priced rows)
    (h : buildPlanCatalogFromRows rows = .ok catalog) (p : ManagedPlanId) :
    0 < (catalog p).monthlyPriceDt := by
  obtain ⟨row, hrow, hcatalog⟩ := buildPlanCatalogFromRows_ok.mp h p
  rw [hcatalog]
  exact hrows row (List.mem_of_find?_eq_some hrow)

private theorem priced_readPlans {s : SubscriptionDb} (hs : Priced s.plans.rows) :
    UserService.readPlans.Wp (fun _ _ => True) mayServe
      (Post (fun rows t => Priced rows ∧ Priced t.plans.rows) fun _ t => Priced t.plans.rows)
      s := by
  unfold UserService.readPlans
  rw [wp_tryCatch]
  apply (priced_findPlans hs).mono
  intro out t hout
  cases out with
  | ok rows => exact hout
  | error e =>
    simp only [post_error] at hout ⊢
    split
    · rw [wp_bind]
      refine ⟨trivial, ?_⟩
      intro r u h
      have hsourced : Sourced .unset .ensurePlanConfigTable := trivial
      have hu : Priced u.plans.rows := priced_mayServe hsourced hout h
      rw [wp_ofExcept]
      cases r with
      | error e => exact hu
      | ok _ => exact priced_findPlans hu
    · exact hout

private theorem priced_seedPlans {s : SubscriptionDb} (hs : Priced s.plans.rows) :
    (UserService.seedPlans json).Wp (fun _ _ => True) mayServe
      (Post (fun catalog _ => ∀ p, 0 < (catalog p).monthlyPriceDt) fun _ _ => True) s := by
  unfold UserService.seedPlans
  cases hseed : loadManagedSubscriptionCatalogFromEnv json with
  | error e => trivial
  | ok seed =>
    simp only [ofExcept_ok, ret_bind]
    rw [wp_bind]
    refine ⟨trivial, ?_⟩
    intro r t h
    have hsourced : Sourced json (.createPlans seed) := hseed
    have ht : Priced t.plans.rows := priced_mayServe hsourced hs h
    rw [wp_ofExcept]
    cases r with
    | error e => trivial
    | ok _ =>
      simp only [post_ok]
      rw [wp_bind]
      apply (priced_findPlans ht).mono
      intro out u hout
      cases out with
      | error e => trivial
      | ok rows =>
        simp only [post_ok] at hout ⊢
        split
        · trivial
        · rw [wp_ofExcept]
          cases hbuild : buildPlanCatalogFromRows rows with
          | error e => trivial
          | ok catalog => exact priced_catalog hout.1 hbuild

/-- A catalog is built from rows that were read, before a seed or after it. -/
theorem priced_getPlanCatalog {s : SubscriptionDb} (hs : Priced s.plans.rows) :
    (UserService.getPlanCatalog json).Wp (fun _ _ => True) mayServe
      (Post (fun catalog _ => ∀ p, 0 < (catalog p).monthlyPriceDt) fun _ _ => True) s := by
  unfold UserService.getPlanCatalog
  rw [wp_bind]
  apply (priced_readPlans hs).mono
  intro out t hout
  cases out with
  | error e => trivial
  | ok rows =>
    simp only [post_ok] at hout ⊢
    split
    · exact priced_seedPlans hout.2
    · rw [wp_ofExcept]
      cases hbuild : buildPlanCatalogFromRows rows with
      | error e => trivial
      | ok catalog => exact priced_catalog hout.1 hbuild

theorem priced_of_offered {catalog : ManagedCatalog} (h : Offered json catalog)
    (p : ManagedPlanId) : 0 < (catalog p).monthlyPriceDt := by
  obtain ⟨s, t, hs, hends⟩ := h
  exact (priced_getPlanCatalog (priced_of_administered hs)).ends hends p

end Catalogs

section Results

variable {env : PaymentEnv} {catalog : ManagedCatalog}

/-- For every catalog that can be loaded and edited, the page shows a plan as it is sold exactly
when there is no active plan, or when it agrees with the catalog on whether the plan is above the
active one, which is not the unlimited one, or when a renewal is open and the price of the active
plan is too small to make a difference. -/
theorem page_shows_as_enforced_iff (henv : Sells env) (hcatalog : Offered env.json catalog)
    (profile : Option SubscriptionSnapshot) (p : ManagedPlanId) :
    ShownAsEnforced env catalog profile p ↔ Agreed catalog profile p :=
  shownAsEnforced_iff_agreed henv (priced_of_offered hcatalog) p

private def equalRank : ManagedPlanId → Int
  | .student => 1
  | .pro => 1
  | .enterprise => 2

private def equalPlans (p : ManagedPlanId) : Option SeedPlan :=
  (SeedPlan.samples p).map fun plan => { plan with rank := some (equalRank p) }

private def equalData : List PlanData :=
  PlanData.samples.map fun data => { data with rank := equalRank data.planId }

private def equalRows : List PlanConfigRow :=
  PlanConfigRow.samples.map fun row => { row with rank := equalRank row.planId }

private def equalEnv : PaymentEnv := { PaymentEnv.sample with json := .record equalPlans }

private def freshDb : SubscriptionDb where
  users := .empty
  quotas := .empty
  owner := by simp
  plans := .empty

private theorem sells_equalEnv : Sells equalEnv where
  stripe := rfl
  url := by decide
  token := by decide
  rate := rfl

private theorem seeded_ends : (UserService.getPlanCatalog (.record equalPlans)).Ends mayServe
    freshDb (.ok (managedCatalog equalRows))
    (freshDb.setPlans (insertPlans freshDb.plans equalRows)) := by
  have hseed : loadManagedSubscriptionCatalogFromEnv (.record equalPlans) = .ok equalData := by
    decide +kernel
  have hrows : equalData.mapM PlanData.row = some equalRows := by decide +kernel
  have hbuild : buildPlanCatalogFromRows equalRows = .ok (managedCatalog equalRows) :=
    if_pos (by decide)
  have hempty : UserService.readPlans.Ends mayServe freshDb (.ok []) freshDb :=
    ⟨.ok [], freshDb, .inl ⟨[], .refl _, .nil, rfl, rfl⟩, rfl, rfl⟩
  have hcreate : (UserService.createPlans equalData).Ends mayServe freshDb (.ok ())
      (freshDb.setPlans (insertPlans freshDb.plans equalRows)) := by
    refine Ends.call (r := .ok ()) (.inl ?_) ⟨rfl, rfl⟩
    simp [serve, hrows]
  have hread : UserService.findPlans.Ends mayServe
      (freshDb.setPlans (insertPlans freshDb.plans equalRows)) (.ok equalRows)
      (freshDb.setPlans (insertPlans freshDb.plans equalRows)) :=
    Ends.call (r := .ok equalRows) (.inl ⟨equalRows, .refl _, by decide, rfl, rfl⟩) ⟨rfl, rfl⟩
  apply Ends.bind hempty
  simp only [if_true, UserService.seedPlans, hseed, ofExcept_ok, ret_bind]
  apply Ends.bind hcreate
  apply Ends.bind hread
  rw [if_neg (by decide), hbuild]
  exact ⟨rfl, rfl⟩

private theorem offered_equalRows : Offered equalEnv.json (managedCatalog equalRows) :=
  ⟨freshDb, _, .fresh rfl, seeded_ends⟩

/-- A new user is shown every plan as it is sold. -/
theorem page_shows_as_enforced_iff_new_user :
    ShownAsEnforced equalEnv (managedCatalog equalRows) none .pro :=
  (page_shows_as_enforced_iff sells_equalEnv offered_equalRows none .pro).mpr trivial

private def lockedStudent : SubscriptionSnapshot where
  planId := .managed .student
  cycleEndsAt := "2026-02-01T00:00:00.000Z"
  vmHoursIncluded := 60
  vmHoursUsed := 12
  canRenewSamePlan := false

/-- The loader accepts equal ranks. The page offers pro to the student as an upgrade for 50 DT, and
the payment service refuses it. -/
theorem equal_rank_is_offered_and_refused :
    Offered equalEnv.json (managedCatalog equalRows) ∧
    isPlanSelectable (some lockedStudent) .pro = true ∧
    shownAmount (some lockedStudent) (managedCatalog equalRows) .pro = 50 ∧
    ¬ Accepts equalEnv (managedCatalog equalRows) (some lockedStudent) .sold "u" .pro ∧
    ¬ ShownAsEnforced equalEnv (managedCatalog equalRows) (some lockedStudent) .pro := by
  have hactive : activePlan (some lockedStudent) = some (.managed .student) := rfl
  have hselectable : isPlanSelectable (some lockedStudent) .pro = true := by decide
  have hrefused :
      ¬ Accepts equalEnv (managedCatalog equalRows) (some lockedStudent) .sold "u" .pro := by
    rw [accepts_managed sells_equalEnv hactive]
    decide
  refine ⟨offered_equalRows, hselectable, ?_, hrefused, ?_⟩
  · have hprices : (managedCatalog equalRows .pro).monthlyPriceDt = 79 ∧
        (managedCatalog equalRows .student).monthlyPriceDt = 29 := by decide
    have hdouble : double 50 = 50 := nearest_natCast (n := 50) (by norm_num) (by norm_num)
    have hfixed : toFixed2 50 = 50 := by
      have h := toFixed2_whole 5000
      norm_num at h
      exact h
    rw [shownAmount_managed hactive, if_pos (by decide), hprices.1, hprices.2]
    norm_num [hdouble, hfixed]
  · intro h
    exact hrefused ((h .sold "u").1.mp hselectable)

end Results

end CloudVM.BillingPage
