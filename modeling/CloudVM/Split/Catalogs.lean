import CloudVM.Billing.Activation
import CloudVM.Billing.Resolve
import CloudVM.Billing.Server
import CloudVM.Framework.Phases

/-!
# Two plan catalogs

With one database per service the payment service and the user service each have a `plan_configs`
table, seeded from the same `PLAN_CATALOG_JSON`. `adminUpdatePlan` edits the table of the payment
service, which keeps the catalog in memory and shows it to everybody. The user service reads its
own table whenever it writes a quota. A request to it is a message: it may be lost, and it may be
answered at any time.
-/

namespace CloudVM.Catalogs

open Process UserService SubscriptionCall

inductive SplitCall where
  | payment (c : PaymentCall)
  | own (c : SubscriptionCall)
  | user (c : SubscriptionCall)
  | planCatalog
  | setPlanCatalog (catalog : ManagedCatalog)
  | receive (userId : String) (planId : SubscriptionPlanId)

@[reducible] def SplitCall.Answer : SplitCall → Type
  | .payment c => c.Answer
  | .own c => c.Answer
  | .user c => c.Answer
  | .planCatalog => Option ManagedCatalog
  | .setPlanCatalog _ => Unit
  | .receive _ _ => Unit

@[reducible] def splitInterface : Interface where
  Call := SplitCall
  Answer := SplitCall.Answer

abbrev SplitProcess (α : Type) := Process splitInterface Failure α

/-- A plan as it is shown. -/
structure PublicPlan where
  id : ManagedPlanId
  name : String
  amountDt : Rat
  rank : Int
  vmHoursMonthly : Int
  quota : QuotaLimits
  features : List String
deriving DecidableEq, Repr

inductive SplitReply where
  | payment (r : PaymentReply)
  | subscription (r : SubscriptionReply)
  | plan (row : PlanConfigRow)
  | plans (plans : List PublicPlan)

inductive SplitRequest where
  | payment (q : PaymentRequest)
  | updatePlan (actorRole : Option Role) (planId : String) (payload : UpdatePlanDto)
  | publicPlans
  | user (q : SubscriptionRequest)

section PaymentService

variable (env : PaymentEnv)

def own {α : Type} (p : SubscriptionProcess α) : SplitProcess α := p.lift SplitCall.own fun _ r => r

def user {α : Type} (p : SubscriptionProcess α) : SplitProcess α := p.lift SplitCall.user fun _ r => r

def loadPlanCatalog : SplitProcess ManagedCatalog := own (UserService.getPlanCatalog env.json)

def setPlanCatalog (catalog : ManagedCatalog) : SplitProcess Unit :=
  .call (.setPlanCatalog catalog) .ret

/-- The catalog in memory; one that is missing is loaded first. -/
def getPlanCatalog : SplitProcess ManagedCatalog := do
  match ← .call .planCatalog .ret with
  | some catalog => pure catalog
  | none =>
    let catalog ← loadPlanCatalog env
    setPlanCatalog catalog
    pure catalog

def refreshPlanCatalog : SplitProcess Unit := do
  let catalog ← loadPlanCatalog env
  setPlanCatalog catalog

def planFeatures (plan : SubscriptionPlanConfig) : List String :=
  let vms := plan.quota.maxVms
  let hours := plan.vmHoursMonthly
  let cpu := plan.quota.maxCpu
  let ram := PaymentService.round (plan.quota.maxRamMb / 1024)
  let disk := plan.quota.maxDiskGb
  [s!"{vms} VMs", s!"{hours} VM hours/month", s!"{cpu} vCPU · {ram} GB RAM · {disk} GB disk"]

def toPublicPlan (catalog : ManagedCatalog) (p : ManagedPlanId) : PublicPlan where
  id := p
  name := PaymentService.planLabel p
  amountDt := (catalog p).monthlyPriceDt
  rank := (catalog p).rank
  vmHoursMonthly := (catalog p).vmHoursMonthly
  quota := (catalog p).quota
  features := planFeatures (catalog p)

def getPublicPlans : SplitProcess (List PublicPlan) := do
  let planCatalog ← getPlanCatalog env
  pure ((requiredPlanIds.map (toPublicPlan planCatalog)).mergeSort fun a b => a.rank ≤ b.rank)

def adminUpdatePlan (actorRole : Option Role) (planId : String) (payload : UpdatePlanDto) :
    SplitProcess PlanConfigRow := do
  own (assertAdminRole actorRole)
  match ManagedPlanId.ofName? planId with
  | none => throw ⟨.badRequest, "Invalid plan id"⟩
  | some normalizedId =>
    match ← own (findPlan normalizedId) with
    | none => throw ⟨.notFound, "Plan config not found"⟩
    | some existing =>
      if payload = {} then pure existing
      else
        let updated ← own (updatePlan normalizedId payload)
        refreshPlanCatalog env
        pure updated

/-- How the payment service carries out a call of a checkout: the catalog is its own. -/
def paymentCall : (c : PaymentCall) → SplitProcess c.Answer
  | .getPlanCatalog => (getPlanCatalog env).attempt
  | c => .call (.payment c) .ret

/-- A request to the user service. An activation answers a message of the payment service. -/
def userRequest : SubscriptionRequest → SplitProcess SubscriptionReply
  | .activate userId planId => do
    .call (.receive userId planId) .ret
    user (activateSubscriptionPlanFromInternal env.json userId planId)
  | .updatePlan _ _ _ => throw ⟨.notFound, "Not Found"⟩
  | q => user (q.handle env.json)

def SplitRequest.handle : SplitRequest → SplitProcess SplitReply
  | .payment q => do
    let r ← (q.handle env).expand (paymentCall env)
    pure (.payment r)
  | .updatePlan actorRole planId payload =>
    if payload.valid then do
      let row ← adminUpdatePlan env actorRole planId payload
      pure (.plan row)
    else throw ⟨.badRequest, "Bad Request"⟩
  | .publicPlans => do
    let plans ← getPublicPlans env
    pure (.plans plans)
  | .user q => do
    let r ← userRequest env q
    pure (.subscription r)

end PaymentService

section Server

/-- The database and the memory of the payment service, the database of the user service, and the
activations that the payment service has asked for. -/
structure SplitBilling where
  pay : PaymentStore
  user : SubscriptionDb
  sent : List (String × SubscriptionPlanId)

/-- How the calls are answered. What the user service tells about an account may be anything. -/
def splitEffect (json : PlanCatalogJson) :
    (c : SplitCall) → SplitBilling → c.Answer → SplitBilling → Prop
  | .payment (.activate _ userId planId), s, _, s' =>
      s' = s ∨ s' = { s with sent := s.sent ++ [(userId, planId)] }
  | .payment (.studentVerification _), s, _, s' => s' = s
  | .payment (.subscriptionAccess _), s, _, s' => s' = s
  | .payment .getPlanCatalog, s, _, s' => s' = s
  | .payment c, s, r, s' => ∃ pay, c.mayServe json s.pay r pay ∧ s' = { s with pay }
  | .own c, s, r, s' => ∃ subs, c.mayServe s.pay.subs r subs ∧ s' = { s with pay := s.pay.withSubs subs }
  | .user c, s, r, s' => ∃ user, c.mayServe s.user r user ∧ s' = { s with user }
  | .planCatalog, s, r, s' => r = s.pay.planCatalog ∧ s' = s
  | .setPlanCatalog catalog, s, _, s' => s' = { s with pay := s.pay.setCatalog (some catalog) }
  | .receive userId planId, s, _, s' => (userId, planId) ∈ s.sent ∧ s' = s

/-- Both services. Meanwhile the payment service may restart, and its other tables may change. -/
def splitServer (env : PaymentEnv) :
    Server splitInterface Failure SplitReply SplitRequest SplitBilling where
  handler := SplitRequest.handle env
  effect := fun _ _ => splitEffect env.json
  change := fun s s' => s'.user = s.user ∧ s'.sent = s.sent ∧
    s'.pay.subs.plans = s.pay.subs.plans ∧
    (s'.pay.planCatalog = s.pay.planCatalog ∨ s'.pay.planCatalog = none)

abbrev SplitStage := Stage splitInterface Failure SplitReply SplitRequest SplitBilling

abbrev SplitLabel := StageLabel splitInterface SplitRequest

abbrev SplitTask := Task splitInterface Failure SplitReply SplitRequest

/-- `getPublicPlans` of the payment service can show these limits for the plan. -/
def Shows (env : PaymentEnv) (s : SplitBilling) (p : ManagedPlanId) (limits : QuotaLimits) : Prop :=
  ∃ plans s', (getPublicPlans env).Ends (splitEffect env.json) s (.ok plans) s' ∧
    ∃ plan ∈ plans, plan.id = p ∧ plan.quota = limits

end Server

end CloudVM.Catalogs
