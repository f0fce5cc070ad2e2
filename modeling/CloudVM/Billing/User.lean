import CloudVM.Billing.Plan
import CloudVM.Framework.Process

/-!
# Subscriptions in the user service

A user's plan is told in two ways: from the limits in the quota row, compared with the catalog,
and from the plan id stored beside them. `adminUpdatePlan` of the payment service works on the
same catalog and is modelled here too. Of a user only the id, the role and `isActive` are kept.
-/

namespace CloudVM

structure Account where
  id : String
  role : Role
  isActive : Bool := true
deriving DecidableEq, Repr

/-- A row of `user_quotas`. -/
structure UserQuota where
  userId : String
  planId : Option SubscriptionPlanId
  limits : QuotaLimits
deriving DecidableEq, Repr

/-- Calls to Postgres. The message of a database failure is the error code of Prisma. -/
inductive SubscriptionCall where
  | findUser (userId : String)
  | findPlans
  | ensurePlanConfigTable
  | createPlans (data : List PlanData)
  | upsertQuota (userId : String) (planId : SubscriptionPlanId) (limits : QuotaLimits)
  | upsertUser (account : Account)
  | updateUser (userId : String) (role : Option Role) (isActive : Option Bool)
  | deleteUser (userId : String)
  | findPlan (planId : ManagedPlanId)
  | updatePlan (planId : ManagedPlanId) (payload : UpdatePlanDto)

/-- What a call answers when it succeeds. -/
abbrev SubscriptionCall.Result : SubscriptionCall → Type
  | .findUser _ => Option (Account × Option UserQuota)
  | .findPlans => List PlanConfigRow
  | .ensurePlanConfigTable => Unit
  | .createPlans _ => Unit
  | .upsertQuota _ _ _ => UserQuota
  | .upsertUser _ => Account
  | .updateUser _ _ _ => Account
  | .deleteUser _ => Unit
  | .findPlan _ => Option PlanConfigRow
  | .updatePlan _ _ => PlanConfigRow

abbrev SubscriptionCall.Answer (c : SubscriptionCall) : Type := Except Failure c.Result

abbrev subscriptionInterface : Interface := ⟨SubscriptionCall, SubscriptionCall.Answer⟩

abbrev SubscriptionProcess (α : Type) := Process subscriptionInterface Failure α

/-- What `/users/internal/quota/:userId` answers. -/
structure QuotaSnapshot where
  hasActiveSubscription : Bool
  planId : Option SubscriptionPlanId
  quota : Option QuotaLimits
deriving DecidableEq, Repr

inductive SubscriptionReply where
  | activated (userId : String) (planId : SubscriptionPlanId) (quota : UserQuota)
  | updated (message : String) (subscription : SubscriptionPlanId) (quota : UserQuota)
      (userId : String)
  | account (a : Account)
  | plan (row : PlanConfigRow)
  | snapshot (s : QuotaSnapshot)
  | message (text : String)
deriving DecidableEq, Repr

namespace UserService

section Resolve

def reaches (limits : QuotaLimits) (plan : SubscriptionPlanConfig) : Bool :=
  plan.quota.maxVms ≤ limits.maxVms && plan.quota.maxCpu ≤ limits.maxCpu

def resolvePlanFromQuota (quota : Option QuotaLimits) (catalog : ManagedCatalog) :
    Option SubscriptionPlanId :=
  match quota with
  | none => none
  | some limits =>
    if unlimitedPlanConfig.quota.maxVms ≤ limits.maxVms ∨
        unlimitedPlanConfig.quota.maxCpu ≤ limits.maxCpu then some .unlimited
    else if reaches limits (catalog .enterprise) then some (.managed .enterprise)
    else if reaches limits (catalog .pro) then some (.managed .pro)
    else if reaches limits (catalog .student) then some (.managed .student)
    else none

def resolvePlanForUser (role : Role) (quota : Option QuotaLimits) (catalog : ManagedCatalog) :
    Option SubscriptionPlanId :=
  if role = .admin then some .unlimited else resolvePlanFromQuota quota catalog

/-- The answer of `getInternalQuotaSnapshot` for a user that exists. -/
def quotaSnapshot (role : Role) (quota : Option UserQuota) : QuotaSnapshot :=
  if role = .admin then
    { hasActiveSubscription := true, planId := some .unlimited
      quota := some unlimitedPlanConfig.quota }
  else
    match quota with
    | none => { hasActiveSubscription := false, planId := none, quota := none }
    | some q =>
      { hasActiveSubscription := q.planId.isSome, planId := q.planId, quota := some q.limits }

end Resolve

section Calls

def findUser (userId : String) : SubscriptionProcess (Option (Account × Option UserQuota)) :=
  .call (.findUser userId) .ofExcept

def findPlans : SubscriptionProcess (List PlanConfigRow) := .call .findPlans .ofExcept

def ensurePlanConfigTable : SubscriptionProcess Unit := .call .ensurePlanConfigTable .ofExcept

def createPlans (data : List PlanData) : SubscriptionProcess Unit :=
  .call (.createPlans data) .ofExcept

def writeQuota (userId : String) (planId : SubscriptionPlanId) (limits : QuotaLimits) :
    SubscriptionProcess UserQuota := .call (.upsertQuota userId planId limits) .ofExcept

def upsertUser (account : Account) : SubscriptionProcess Account :=
  .call (.upsertUser account) .ofExcept

def updateUser (userId : String) (role : Option Role) (isActive : Option Bool) :
    SubscriptionProcess Account := .call (.updateUser userId role isActive) .ofExcept

def removeUser (userId : String) : SubscriptionProcess Unit := .call (.deleteUser userId) .ofExcept

def findPlan (planId : ManagedPlanId) : SubscriptionProcess (Option PlanConfigRow) :=
  .call (.findPlan planId) .ofExcept

def updatePlan (planId : ManagedPlanId) (payload : UpdatePlanDto) :
    SubscriptionProcess PlanConfigRow := .call (.updatePlan planId payload) .ofExcept

end Calls

section Catalog

variable (json : PlanCatalogJson)

def isMissingPlanConfigTableError (e : Failure) : Bool :=
  decide (e.kind = .database) && decide (e.message = "P2021")

/-- The first read of the catalog, which creates the table if there is none. -/
def readPlans : SubscriptionProcess (List PlanConfigRow) :=
  tryCatch findPlans fun e =>
    if isMissingPlanConfigTableError e then do
      ensurePlanConfigTable
      findPlans
    else throw e

/-- An empty table is filled from the environment and read again. -/
def seedPlans : SubscriptionProcess ManagedCatalog := do
  let seed ← .ofExcept (loadManagedSubscriptionCatalogFromEnv json)
  createPlans seed
  let seededRows ← findPlans
  if seededRows = [] then throw ⟨.internal, "Plan catalog seed failed"⟩
  else .ofExcept (buildPlanCatalogFromRows seededRows)

/-- `getPlanCatalog` of the user service and `loadPlanCatalog` of the payment service. -/
def getPlanCatalog : SubscriptionProcess ManagedCatalog := do
  let rows ← readPlans
  if rows = [] then seedPlans json else .ofExcept (buildPlanCatalogFromRows rows)

def upsertQuota (userId : String) (planId : SubscriptionPlanId) :
    SubscriptionProcess UserQuota := do
  let catalog ← getPlanCatalog json
  writeQuota userId planId (catalogEntry catalog planId).quota

end Catalog

section Operations

variable (json : PlanCatalogJson)

def assertAdminRole (actorRole : Option Role) : SubscriptionProcess Unit :=
  if actorRole = some .admin then pure () else throw ⟨.forbidden, "Admin role required"⟩

/-- The user, or `User not found`. -/
def existingUser (userId : String) : SubscriptionProcess (Account × Option UserQuota) := do
  match ← findUser userId with
  | some found => pure found
  | none => throw ⟨.notFound, "User not found"⟩

def finalPlan (role : Role) (planId : SubscriptionPlanId) : SubscriptionPlanId :=
  if role = .admin then .unlimited else planId

def getInternalQuotaSnapshot (userId : String) : SubscriptionProcess SubscriptionReply := do
  let found ← existingUser userId
  pure (.snapshot (quotaSnapshot found.1.role found.2))

def activateSubscriptionPlanFromInternal (userId : String) (planId : SubscriptionPlanId) :
    SubscriptionProcess SubscriptionReply := do
  let found ← existingUser userId
  let quota ← upsertQuota json userId (finalPlan found.1.role planId)
  pure (.activated userId (finalPlan found.1.role planId) quota)

def setUserSubscription (id : String) (planId : SubscriptionPlanId) (actorRole : Option Role)
    (actorUserId : Option String) : SubscriptionProcess SubscriptionReply := do
  assertAdminRole actorRole
  let found ← existingUser id
  if some id = actorUserId ∧ found.1.role = .admin ∧ planId ≠ .unlimited then
    throw ⟨.forbidden, "Admin accounts must remain on unlimited subscription"⟩
  else
    let quota ← upsertQuota json id (finalPlan found.1.role planId)
    pure (.updated "Subscription updated successfully" (finalPlan found.1.role planId) quota id)

def grantIf (needed : Bool) (userId : String) (planId : SubscriptionPlanId) :
    SubscriptionProcess Unit :=
  if needed then do
    let _ ← upsertQuota json userId planId
    pure ()
  else pure ()

def adminUpdateUser (id : String) (role : Option Role) (isActive : Option Bool)
    (actorRole : Option Role) (actorUserId : Option String) :
    SubscriptionProcess SubscriptionReply := do
  assertAdminRole actorRole
  let found ← existingUser id
  if some id = actorUserId ∧ role = some .user then
    throw ⟨.forbidden, "You cannot remove your own admin role"⟩
  else if some id = actorUserId ∧ isActive = some false then
    throw ⟨.forbidden, "You cannot deactivate your own account"⟩
  else
    let updated ← updateUser id role isActive
    grantIf json (role = some .admin) id .unlimited
    grantIf json (found.1.role = .admin ∧ role = some .user) id (.managed .student)
    pure (.account updated)

def syncFromAuth (id : String) (role : Option Role) (isActive : Option Bool) :
    SubscriptionProcess SubscriptionReply := do
  let user ← upsertUser { id, role := role.getD .user, isActive := isActive.getD true }
  grantIf json (role = some .admin) id .unlimited
  pure (.account user)

def deleteUser (id : String) (actorRole : Option Role) :
    SubscriptionProcess SubscriptionReply := do
  assertAdminRole actorRole
  let _ ← existingUser id
  removeUser id
  pure (.message "User deleted successfully")

/-- `adminUpdatePlan` of the payment service, with the `refreshPlanCatalog` at its end. -/
def adminUpdatePlan (actorRole : Option Role) (planId : String) (payload : UpdatePlanDto) :
    SubscriptionProcess SubscriptionReply := do
  assertAdminRole actorRole
  match ManagedPlanId.ofName? planId with
  | none => throw ⟨.badRequest, "Invalid plan id"⟩
  | some normalizedId =>
    match ← findPlan normalizedId with
    | none => throw ⟨.notFound, "Plan config not found"⟩
    | some existing =>
      if payload = {} then pure (.plan existing)
      else
        let updated ← updatePlan normalizedId payload
        let _ ← getPlanCatalog json
        pure (.plan updated)

end Operations

end UserService

/-- Requests that read or change subscriptions. -/
inductive SubscriptionRequest where
  | quotaSnapshot (userId : String)
  | activate (userId : String) (planId : SubscriptionPlanId)
  | setSubscription (id : String) (planId : SubscriptionPlanId) (actorRole : Option Role)
      (actorUserId : Option String)
  | updateUser (id : String) (role : Option Role) (isActive : Option Bool)
      (actorRole : Option Role) (actorUserId : Option String)
  | syncFromAuth (id : String) (role : Option Role) (isActive : Option Bool)
  | deleteUser (id : String) (actorRole : Option Role)
  | updatePlan (actorRole : Option Role) (planId : String) (payload : UpdatePlanDto)

/-- The handler of a request. The body of a plan update passes its validation first. -/
def SubscriptionRequest.handle (json : PlanCatalogJson) :
    SubscriptionRequest → SubscriptionProcess SubscriptionReply
  | .quotaSnapshot userId => UserService.getInternalQuotaSnapshot userId
  | .activate userId planId => UserService.activateSubscriptionPlanFromInternal json userId planId
  | .setSubscription id planId actorRole actorUserId =>
    UserService.setUserSubscription json id planId actorRole actorUserId
  | .updateUser id role isActive actorRole actorUserId =>
    UserService.adminUpdateUser json id role isActive actorRole actorUserId
  | .syncFromAuth id role isActive => UserService.syncFromAuth json id role isActive
  | .deleteUser id actorRole => UserService.deleteUser id actorRole
  | .updatePlan actorRole planId payload =>
    if payload.valid then UserService.adminUpdatePlan json actorRole planId payload
    else throw ⟨.badRequest, "Bad Request"⟩

end CloudVM
