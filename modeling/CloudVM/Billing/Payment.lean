import CloudVM.Billing.User
import CloudVM.Framework.Doubles

/-!
# The payment service

`createCheckoutSession`, `confirmCheckoutSession` and `handleWebhook`, as processes over the
payment tables, Stripe and the user service. Amounts are doubles: `fl` is what rounds the result of
an operation; with `id` in its place a checkout computes exactly. The activation call carries the
id of the payment it is made for; the request itself has only the user and the plan.
-/

namespace CloudVM

inductive PaymentStatus where
  | pending
  | paid
  | adminGranted
  | expired
deriving DecidableEq, Repr

/-- A row of `payments`. -/
structure PaymentRow where
  id : String
  userId : String
  planId : Option String := none
  amount : Rat
  currency : String := "TND"
  status : PaymentStatus := .pending
  method : Option String := none
deriving DecidableEq, Repr

/-- `data` of `payment.create`. -/
structure PaymentData where
  userId : String
  planId : ManagedPlanId
  amount : Rat
  currency : String
  status : PaymentStatus
  method : String
deriving DecidableEq, Repr

inductive StripeEventType where
  | sessionCompleted
  | sessionExpired
  | other (name : String)
deriving DecidableEq, Repr

/-- A verified event; `session` is `event.data.object.id`. -/
structure StripeEvent where
  id : String
  type : StripeEventType
  session : String
deriving DecidableEq, Repr

/-- What `checkout.sessions.retrieve` tells about a session. -/
structure StripeSession where
  metadataUserId : Option String
  paymentStatus : String
deriving DecidableEq, Repr

/-- Arguments of `checkout.sessions.create`. -/
structure SessionData where
  unitAmount : Int
  productName : String
  productDescription : String
  userId : String
  planId : ManagedPlanId
  amountTnd : String
  usdPerTndRate : String
  chargedUsd : String
  upgradeFrom : Option ManagedPlanId
  successUrl : String
  cancelUrl : String
deriving DecidableEq, Repr

structure CreatedSession where
  id : String
  url : Option String
deriving DecidableEq, Repr

/-- What `/users/internal/subscription-access/:userId` answers. -/
structure SubscriptionAccess where
  activePlanId : Option SubscriptionPlanId
  canPurchaseSameOrLower : Bool
  usageRatio : Rat
  cycleEndsAt : Option String := none
deriving DecidableEq, Repr

/-- Calls to Postgres, Stripe and the user service. -/
inductive PaymentCall where
  | getPlanCatalog
  | studentVerification (userId : String)
  | subscriptionAccess (userId : String)
  | activate (payment userId : String) (planId : SubscriptionPlanId)
  | createSession (data : SessionData)
  | retrieveSession (sessionId : String)
  | createEvent (eventId : String) (type : StripeEventType)
  | findStripePayments (sessionId : String)
  | markPaid (ids : List String)
  | markExpired (sessionId : String)
  | createPayment (data : PaymentData)

abbrev PaymentCall.Result : PaymentCall → Type
  | .getPlanCatalog => ManagedCatalog
  | .studentVerification _ => Bool
  | .subscriptionAccess _ => SubscriptionAccess
  | .activate _ _ _ => Unit
  | .createSession _ => CreatedSession
  | .retrieveSession _ => Option StripeSession
  | .createEvent _ _ => Unit
  | .findStripePayments _ => List PaymentRow
  | .markPaid _ => Unit
  | .markExpired _ => Unit
  | .createPayment _ => Unit

abbrev PaymentCall.Answer (c : PaymentCall) : Type := Except Failure c.Result

abbrev paymentInterface : Interface := ⟨PaymentCall, PaymentCall.Answer⟩

abbrev PaymentProcess (α : Type) := Process paymentInterface Failure α

/-- Configuration, and what is taken from Stripe's library and the runtime. -/
structure PaymentEnv where
  json : PlanCatalogJson
  stripeConfigured : Bool
  webhookSecret : Option String
  userServiceUrl : String
  interServiceSyncToken : String
  publicOrigin : String
  usdPerTndRate : Option Rat
  constructEvent : String → String → String → Option StripeEvent
  lower : String → String
  numberText : Rat → String
  localDate : String → String

/-- A configuration for samples, with one delivery that verifies. -/
def PaymentEnv.sample : PaymentEnv where
  json := .unset
  stripeConfigured := true
  webhookSecret := some "whsec"
  userServiceUrl := "http://user:3003"
  interServiceSyncToken := "token"
  publicOrigin := "http://127.0.0.1:3000"
  usdPerTndRate := some (8 / 25)
  constructEvent := fun rawBody signature _ =>
    if rawBody = "body" ∧ signature = "v1" then some ⟨"evt_1", .sessionCompleted, "cs_test_1"⟩ else none
  lower := fun s => String.ofList (s.toList.map Char.toLower)
  numberText := fun x => toString x.num
  localDate := fun s => s

inductive PaymentReply where
  | checkout (checkoutUrl : Option String) (sessionId : String) (amountDt chargedAmount rate : Rat)
  | confirmed (sessionId : String) (updatedPayments : Nat) (appliedPlanIds : List SubscriptionPlanId)
  | received
deriving DecidableEq, Repr

namespace PaymentService

open Text

section Numbers

/-- `Math.round`. -/
def round (x : Rat) : Int := (x + 1 / 2).floor

/-- Hundredths of `Number(x.toFixed(2))`. -/
def hundredths (x : Rat) : Int := if x < 0 then -round (-x * 100) else round (x * 100)

def toFixed2 (x : Rat) : Rat := hundredths x / 100

theorem round_intCast (n : Int) : round (n : Rat) = n := by
  change ⌊(n : Rat) + 1 / 2⌋ = n
  rw [Int.floor_eq_iff]
  constructor <;> linarith

theorem toFixed2_whole (n : Int) : toFixed2 ((n : Rat) / 100) = n / 100 := by
  have hmul : (n : Rat) / 100 * 100 = n := by ring
  have hneg : -((n : Rat) / 100) * 100 = ((-n : Int) : Rat) := by
    push_cast
    ring
  unfold toFixed2 hundredths
  split
  · rw [hneg, round_intCast]
    push_cast
    ring
  · rw [hmul, round_intCast]

/-- The text of `x.toFixed(2)`. -/
def fixed2Text (x : Rat) : String :=
  let n := (hundredths x).natAbs
  let whole := n / 100
  let tens := n % 100 / 10
  let ones := n % 10
  (if hundredths x < 0 then "-" else "") ++ s!"{whole}.{tens}{ones}"

end Numbers

section Plans

def planLabel : ManagedPlanId → String
  | .student => "Student"
  | .pro => "Pro"
  | .enterprise => "Enterprise"

/-- `name` of a `PaymentPlanConfig`. -/
def planName (p : ManagedPlanId) : String := planLabel p ++ " Plan"

/-- `description` of a `PaymentPlanConfig`. -/
def planDescription (plan : SubscriptionPlanConfig) : String :=
  let vms := plan.quota.maxVms
  let hours := plan.vmHoursMonthly
  let cpu := plan.quota.maxCpu
  let ram := round (plan.quota.maxRamMb / 1024)
  let disk := plan.quota.maxDiskGb
  s!"Up to {vms} VMs · {hours} VM hours/month · {cpu} vCPU / {ram} GB / {disk} GB"

def getPlanRank (planId : Option SubscriptionPlanId) (catalog : ManagedCatalog) : Int :=
  match planId with
  | none => 0
  | some .unlimited => 99
  | some (.managed p) => (catalog p).rank

/-- The plan named after `admin:grant:`, up to the next colon. -/
def grantedPlan (method : String) : Option SubscriptionPlanId :=
  if startsWith method "admin:grant:" then
    SubscriptionPlanId.ofName? (String.ofList ((method.toList.drop 12).takeWhile (· != ':')))
  else none

/-- The first match of `/:plan:(student|pro|enterprise|unlimited)/`. -/
def planMatch (method : String) : Option SubscriptionPlanId :=
  method.toList.tails.findSome? fun rest =>
    [.managed .student, .managed .pro, .managed .enterprise, .unlimited].find? fun p =>
      (":plan:" ++ p.name).toList.isPrefixOf rest

def extractPlanFromPayment (lower : String → String) (payment : PaymentRow) :
    Option SubscriptionPlanId :=
  let method := lower (payment.method.getD "")
  (payment.planId.bind SubscriptionPlanId.ofName?).or ((grantedPlan method).or (planMatch method))

end Plans

section Calls

variable (env : PaymentEnv)

/-- `getUserServiceUrl` and `getInterServiceSyncToken`. -/
def checkUserService : PaymentProcess Unit :=
  if env.userServiceUrl = "" then
    throw ⟨.internal, "Missing USER_SERVICE_URL configuration"⟩
  else if env.interServiceSyncToken = "" then
    throw ⟨.internal, "Missing INTER_SERVICE_SYNC_TOKEN configuration"⟩
  else pure ()

/-- `fetchWithTimeout`: whatever goes wrong becomes one exception; the detail is the body of a
refusal. -/
def fetched {α : Type} (errorMessage : String) : Except Failure α → PaymentProcess α
  | .ok a => pure a
  | .error e =>
    throw ⟨.internal, if e.message = "" then errorMessage else errorMessage ++ ": " ++ e.message⟩

def getPlanCatalog : PaymentProcess ManagedCatalog := .call .getPlanCatalog .ofExcept

def getStudentVerification (userId : String) : PaymentProcess Bool := do
  checkUserService env
  .call (.studentVerification userId) (fetched "Failed to fetch student verification status")

def getSubscriptionAccessSnapshot (userId : String) : PaymentProcess SubscriptionAccess := do
  checkUserService env
  .call (.subscriptionAccess userId) (fetched "Failed to verify subscription access state")

def syncQuotaForPlan (payment userId : String) : Option SubscriptionPlanId → PaymentProcess Unit
  | none => pure ()
  | some planId => do
    checkUserService env
    .call (.activate payment userId planId) (fetched "Failed to activate subscription quota")

def findStripePayments (sessionId : String) : PaymentProcess (List PaymentRow) :=
  .call (.findStripePayments sessionId) .ofExcept

def markPaid (ids : List String) : PaymentProcess Unit := .call (.markPaid ids) .ofExcept

def markExpired (sessionId : String) : PaymentProcess Unit :=
  .call (.markExpired sessionId) .ofExcept

end Calls

section Sessions

variable (env : PaymentEnv)

/-- The loop over the payments, with the plans applied. -/
def applyPlans : List PaymentRow → PaymentProcess (List SubscriptionPlanId)
  | [] => pure []
  | payment :: rest => do
    let planId := extractPlanFromPayment env.lower payment
    syncQuotaForPlan env payment.id payment.userId planId
    let applied ← applyPlans rest
    pure (planId.toList ++ applied)

/-- `markStripeSessionAsPaid`; without a user to expect every payment is taken. -/
def markStripeSessionAsPaid (sessionId : String) (expectedUserId : Option String) :
    PaymentProcess (Nat × List SubscriptionPlanId) := do
  let matched ← findStripePayments sessionId
  if matched = [] then pure (0, [])
  else if expectedUserId.any (fun u => u ≠ "" && matched.any fun p => p.userId ≠ u) then
    throw ⟨.forbidden, "Checkout session does not belong to this account"⟩
  else
    markPaid (matched.map PaymentRow.id)
    let applied ← applyPlans env matched
    pure (matched.length, applied)

/-- What is left once Stripe has told about the session. -/
def confirmRetrieved (userId sessionId : String) : Option StripeSession → PaymentProcess PaymentReply
  | none => throw ⟨.badRequest, "Stripe session not found"⟩
  | some session =>
    if session.metadataUserId.any fun u => u ≠ "" && u ≠ userId then
      throw ⟨.forbidden, "Checkout session does not belong to this account"⟩
    else if session.paymentStatus ≠ "paid" then
      throw ⟨.badRequest, "Stripe session is not paid yet"⟩
    else do
      let result ← markStripeSessionAsPaid env sessionId (some userId)
      pure (.confirmed sessionId result.1 result.2)

def confirmCheckoutSession (userId sessionId : String) : PaymentProcess PaymentReply :=
  if !env.stripeConfigured then
    throw ⟨.internal, "Stripe is not configured on this environment"⟩
  else if jsTrim sessionId = "" then throw ⟨.badRequest, "Missing Stripe session id"⟩
  else do
    let session ← .call (.retrieveSession sessionId) .ofExcept
    confirmRetrieved env userId sessionId session

def truthy (x : Option String) : Option String := x.filter (· ≠ "")

def processEvent (event : StripeEvent) : PaymentProcess PaymentReply :=
  match event.type with
  | .sessionCompleted => do
    let _ ← markStripeSessionAsPaid env event.session none
    pure .received
  | .sessionExpired => do
    markExpired event.session
    pure .received
  | .other _ => pure .received

/-- The unique index on the event id has refused the row. -/
def isUniqueViolation (e : Failure) : Bool :=
  decide (e.kind = .database) && decide (e.message = "P2002")

/-- A verified event: it is recorded first; an event recorded before is taken as done. -/
def handleEvent (event : StripeEvent) : PaymentProcess PaymentReply :=
  .call (.createEvent event.id event.type) fun
    | .ok () => processEvent env event
    | .error e => if isUniqueViolation e then pure .received else throw e

def handleWebhook (rawBody : String) (stripeSignature : Option String) :
    PaymentProcess PaymentReply :=
  if !env.stripeConfigured then
    throw ⟨.internal, "Stripe is not configured on this environment"⟩
  else
    match truthy env.webhookSecret with
    | none => throw ⟨.internal, "Missing STRIPE_WEBHOOK_SECRET"⟩
    | some webhookSecret =>
      match truthy stripeSignature with
      | none => throw ⟨.badRequest, "Missing stripe-signature header"⟩
      | some signature =>
        match env.constructEvent rawBody signature webhookSecret with
        | none => throw ⟨.badRequest, "Invalid Stripe webhook signature"⟩
        | some event => handleEvent env event

end Sessions

section Checkout

variable (env : PaymentEnv)

/-- The refusal of a plan that is not above the current one. -/
def refusePurchase (requested : ManagedPlanId) (current : SubscriptionPlanId)
    (snapshot : SubscriptionAccess) : Failure :=
  let usage := round (Doubles.double (snapshot.usageRatio * 100))
  let cycleEnd := (snapshot.cycleEndsAt.map env.localDate).getD "the current cycle end"
  let plan := current.name
  if .managed requested = current then
    ⟨.badRequest, s!"You already have the {plan} plan. Renewal is locked until you reach 90% usage or until {cycleEnd}. Current usage: {usage}%."⟩
  else
    ⟨.badRequest, s!"You currently have an active {plan} plan. Same or lower plans unlock at 90% usage (or cycle end). Current usage: {usage}%."⟩

def enforcePlanPurchaseRules (userId : String) (requested : ManagedPlanId)
    (catalog : ManagedCatalog) : PaymentProcess Unit := do
  let snapshot ← getSubscriptionAccessSnapshot env userId
  match snapshot.activePlanId with
  | none => pure ()
  | some .unlimited =>
    throw ⟨.forbidden, "Admin/unlimited accounts cannot purchase paid plans"⟩
  | some current =>
    if getPlanRank (some current) catalog < getPlanRank (some (.managed requested)) catalog then pure ()
    else if snapshot.canPurchaseSameOrLower then pure ()
    else throw (refusePurchase env requested current snapshot)

def upgradeFrom (planId : ManagedPlanId) (active : Option SubscriptionPlanId)
    (catalog : ManagedCatalog) : Option ManagedPlanId :=
  match active with
  | some (.managed current) => if (catalog current).rank < (catalog planId).rank then some current else none
  | _ => none

/-- `chargeDt`: an upgrade pays the difference. -/
def chargeDtWith (fl : Rat → Rat) (planId : ManagedPlanId) (upgrade : Option ManagedPlanId)
    (catalog : ManagedCatalog) : Rat :=
  match upgrade with
  | some current =>
    max 0 (fl (toFixed2 (fl ((catalog planId).monthlyPriceDt - (catalog current).monthlyPriceDt))))
  | none => (catalog planId).monthlyPriceDt

def usdAmountWith (fl : Rat → Rat) (charge rate : Rat) : Rat := fl (toFixed2 (fl (charge * rate)))

def sessionDataWith (fl : Rat → Rat) (userId : String) (planId : ManagedPlanId)
    (upgrade : Option ManagedPlanId) (catalog : ManagedCatalog) (rate : Rat) : SessionData :=
  let charge := chargeDtWith fl planId upgrade catalog
  let usdAmount := usdAmountWith fl charge rate
  let description := planDescription (catalog planId)
  let label := planLabel planId
  let chargeText := env.numberText charge
  { unitAmount := round (fl (usdAmount * 100))
    productName := match upgrade with
      | some _ => s!"Upgrade to {label}"
      | none => planName planId
    productDescription := match upgrade with
      | some current =>
        let from_ := planLabel current
        s!"{description} · Upgrade from {from_} · Displayed price: {chargeText} DT"
      | none => s!"{description} · Displayed price: {chargeText} DT"
    userId, planId
    amountTnd := chargeText
    usdPerTndRate := env.numberText rate
    chargedUsd := env.numberText usdAmount
    upgradeFrom := upgrade
    successUrl := env.publicOrigin ++
      "/dashboard/billing?status=success&session_id=\x7bCHECKOUT_SESSION_ID\x7d"
    cancelUrl := env.publicOrigin ++ "/dashboard/billing?status=cancelled" }

/-- Open a session at Stripe and record its payment as pending. -/
def openCheckoutWith (fl : Rat → Rat) (userId : String) (planId : ManagedPlanId)
    (upgrade : Option ManagedPlanId) (catalog : ManagedCatalog) (rate : Rat) :
    PaymentProcess PaymentReply := do
  let charge := chargeDtWith fl planId upgrade catalog
  let usdAmount := usdAmountWith fl charge rate
  let session ← .call (.createSession (sessionDataWith env fl userId planId upgrade catalog rate))
    .ofExcept
  let usd := fixed2Text usdAmount
  let plan := planId.name
  let sid := session.id
  .call (.createPayment
    { userId, planId, amount := charge, currency := "TND", status := .pending
      method := s!"stripe:{sid}:plan:{plan}:usd:{usd}" }) .ofExcept
  pure (.checkout session.url session.id charge usdAmount rate)

def requireStudent (userId : String) (planId : ManagedPlanId) : PaymentProcess Unit :=
  if planId = .student then do
    let verified ← getStudentVerification env userId
    if verified then pure ()
    else throw ⟨.forbidden, "Student email verification is required before purchasing the Student plan."⟩
  else pure ()

def createCheckoutSessionWith (fl : Rat → Rat) (userId : String) (role : Role)
    (planId : ManagedPlanId) : PaymentProcess PaymentReply :=
  if !env.stripeConfigured then
    throw ⟨.internal, "Stripe is not configured on this environment"⟩
  else if role = .admin then
    throw ⟨.forbidden, "Admin accounts have unlimited access and cannot purchase plans"⟩
  else do
    let catalog ← getPlanCatalog
    requireStudent env userId planId
    enforcePlanPurchaseRules env userId planId catalog
    let snapshot ← getSubscriptionAccessSnapshot env userId
    match env.usdPerTndRate with
    | none => throw ⟨.internal, "Invalid STRIPE_TND_TO_USD_RATE configuration"⟩
    | some rate =>
      openCheckoutWith env fl userId planId (upgradeFrom planId snapshot.activePlanId catalog) catalog
        rate

def createCheckoutSession (userId : String) (role : Role) (planId : ManagedPlanId) :
    PaymentProcess PaymentReply :=
  createCheckoutSessionWith env id userId role planId

def chargeDt (planId : ManagedPlanId) (upgrade : Option ManagedPlanId) (catalog : ManagedCatalog) :
    Rat :=
  chargeDtWith id planId upgrade catalog

def openCheckout (userId : String) (planId : ManagedPlanId) (upgrade : Option ManagedPlanId)
    (catalog : ManagedCatalog) (rate : Rat) : PaymentProcess PaymentReply :=
  openCheckoutWith env id userId planId upgrade catalog rate

end Checkout

end PaymentService

inductive PaymentRequest where
  | checkout (userId : String) (role : Role) (planId : ManagedPlanId)
  | confirm (userId sessionId : String)
  | webhook (rawBody : String) (stripeSignature : Option String)
deriving DecidableEq, Repr

def PaymentRequest.handle (env : PaymentEnv) : PaymentRequest → PaymentProcess PaymentReply
  | .checkout userId role planId => PaymentService.createCheckoutSession env userId role planId
  | .confirm userId sessionId => PaymentService.confirmCheckoutSession env userId sessionId
  | .webhook rawBody stripeSignature => PaymentService.handleWebhook env rawBody stripeSignature

end CloudVM
