import CloudVM.Billing.Store
import CloudVM.Framework.Requests

/-!
# The two ways of telling a user's plan

Requests that write quotas and requests that edit the catalog run beside each other. Beside the
tables the catalog from which each quota row was last written is remembered. The plan inferred
from the limits is the stored one exactly when the catalog still ranks those limits there.
-/

namespace CloudVM

open Process UserService

abbrev SubscriptionLog := List (Event subscriptionInterface)

namespace Subscription

section Log

/-- The rows that a read of the catalog returned. -/
def readRows : Event subscriptionInterface → Option (List PlanConfigRow)
  | ⟨.findPlans, .ok rows⟩ => some rows
  | _ => none

def lastCatalog (log : SubscriptionLog) : Option ManagedCatalog :=
  (log.filterMap readRows).getLast?.bind fun rows => (buildPlanCatalogFromRows rows).toOption

theorem lastCatalog_read {log : SubscriptionLog} {rows : List PlanConfigRow}
    {catalog : ManagedCatalog} (h : buildPlanCatalogFromRows rows = .ok catalog) :
    lastCatalog (log ++ [⟨SubscriptionCall.findPlans, .ok rows⟩]) = some catalog := by
  simp [lastCatalog, readRows, h, Except.toOption]

end Log

/-- The limits written to a quota row are those of its plan in the catalog last read. -/
def Grounded (log : SubscriptionLog) (c : SubscriptionCall) : Prop :=
  ∀ userId planId limits, c = .upsertQuota userId planId limits →
    ∃ catalog, lastCatalog log = some catalog ∧ limits = (catalogEntry catalog planId).quota

/-- Every quota that the process writes is grounded, whatever was logged before. -/
abbrev Careful {α : Type} (p : SubscriptionProcess α) : Prop :=
  p.Keeps Grounded (logged fun _ _ => True) fun _ => True

section Operations

variable {json : PlanCatalogJson}

private theorem grounded_plain {log : SubscriptionLog} {c : SubscriptionCall}
    (hc : ∀ u p l, c ≠ .upsertQuota u p l) : Grounded log c := by
  intro u p l h
  exact (hc u p l h).elim

theorem careful_call {c : SubscriptionCall} (hc : ∀ u p l, c ≠ .upsertQuota u p l) :
    Careful (.call c .ofExcept) := by
  apply keeps_call
  · intro log _
    exact grounded_plain hc
  · intro r log log' _ _
    exact ⟨trivial, keeps_ofExcept r⟩

private theorem readPlans_wp (log : SubscriptionLog) :
    readPlans.Wp Grounded (logged fun _ _ => True)
      (Post (fun rows log' => ∀ catalog, buildPlanCatalogFromRows rows = .ok catalog →
        lastCatalog log' = some catalog) fun _ _ => True) log := by
  have hfind : ∀ log, findPlans.Wp Grounded (logged fun _ _ => True)
      (Post (fun rows log' => ∀ catalog, buildPlanCatalogFromRows rows = .ok catalog →
        lastCatalog log' = some catalog) fun _ _ => True) log := by
    intro log
    refine ⟨grounded_plain (by simp), fun r log' hlog => ?_⟩
    obtain ⟨-, rfl⟩ := hlog
    rw [wp_ofExcept]
    cases r with
    | error e => trivial
    | ok rows =>
      intro catalog hcatalog
      exact lastCatalog_read hcatalog
  refine (wp_tryCatch _ _ _ _).mpr ((hfind log).mono ?_)
  intro out log' hout
  cases out with
  | ok rows => exact hout
  | error e =>
    simp only [post_error]
    split
    · refine (wp_bind _ _ _ _).mpr ⟨grounded_plain (by simp), fun r log₁ h₁ => ?_⟩
      rw [wp_ofExcept]
      cases r with
      | error e => trivial
      | ok u => exact hfind log₁
    · trivial

private theorem seedPlans_wp (log : SubscriptionLog) :
    (seedPlans json).Wp Grounded (logged fun _ _ => True)
      (Post (fun catalog log' => lastCatalog log' = some catalog) fun _ _ => True) log := by
  refine (wp_bind _ _ _ _).mpr ?_
  rw [wp_ofExcept]
  cases loadManagedSubscriptionCatalogFromEnv json with
  | error e => trivial
  | ok seed =>
    refine (wp_bind _ _ _ _).mpr ⟨grounded_plain (by simp), fun r log₁ h₁ => ?_⟩
    rw [wp_ofExcept]
    cases r with
    | error e => trivial
    | ok u =>
      refine (wp_bind _ _ _ _).mpr ⟨grounded_plain (by simp), fun r log₂ h₂ => ?_⟩
      obtain ⟨-, rfl⟩ := h₂
      rw [wp_ofExcept]
      cases r with
      | error e => trivial
      | ok rows =>
        simp only [post_ok]
        split
        · trivial
        · rw [wp_ofExcept]
          cases hbuild : buildPlanCatalogFromRows rows with
          | error e => trivial
          | ok catalog => exact lastCatalog_read hbuild

theorem getPlanCatalog_wp (log : SubscriptionLog) :
    (getPlanCatalog json).Wp Grounded (logged fun _ _ => True)
      (Post (fun catalog log' => lastCatalog log' = some catalog) fun _ _ => True) log := by
  refine (wp_bind _ _ _ _).mpr ((readPlans_wp log).mono ?_)
  intro out log' hout
  cases out with
  | error e => trivial
  | ok rows =>
    simp only [post_ok]
    split
    · exact seedPlans_wp log'
    · rw [wp_ofExcept]
      cases hbuild : buildPlanCatalogFromRows rows with
      | error e => trivial
      | ok catalog => exact hout catalog hbuild

theorem careful_getPlanCatalog : Careful (getPlanCatalog json) := by
  intro log _
  exact (getPlanCatalog_wp log).mono fun _ _ _ => trivial

theorem careful_upsertQuota (userId : String) (planId : SubscriptionPlanId) :
    Careful (UserService.upsertQuota json userId planId) := by
  intro log _
  refine (wp_bind _ _ _ _).mpr ((getPlanCatalog_wp log).mono ?_)
  intro out log' hout
  cases out with
  | error e => trivial
  | ok catalog =>
    refine ⟨?_, fun r log'' _ => ?_⟩
    · intro u p l h
      cases h
      exact ⟨catalog, hout, rfl⟩
    · rw [wp_ofExcept]
      trivial

theorem careful_assertAdminRole (actorRole : Option Role) : Careful (assertAdminRole actorRole) := by
  unfold assertAdminRole
  split
  · exact keeps_ret ()
  · exact keeps_raise _

theorem careful_existingUser (userId : String) : Careful (existingUser userId) := by
  apply keeps_bind (careful_call (by simp))
  intro found
  cases found with
  | none => exact keeps_raise _
  | some found => exact keeps_ret found

theorem careful_grantIf (needed : Bool) (userId : String) (planId : SubscriptionPlanId) :
    Careful (grantIf json needed userId planId) := by
  unfold grantIf
  split
  · exact keeps_bind (careful_upsertQuota userId planId) fun _ => keeps_ret _
  · exact keeps_ret _

theorem careful_activate (userId : String) (planId : SubscriptionPlanId) :
    Careful (activateSubscriptionPlanFromInternal json userId planId) := by
  apply keeps_bind (careful_existingUser userId)
  intro found
  apply keeps_bind (careful_upsertQuota userId _)
  intro quota
  exact keeps_ret _

theorem careful_setUserSubscription (id : String) (planId : SubscriptionPlanId)
    (actorRole : Option Role) (actorUserId : Option String) :
    Careful (setUserSubscription json id planId actorRole actorUserId) := by
  apply keeps_bind (careful_assertAdminRole actorRole)
  intro _
  apply keeps_bind (careful_existingUser id)
  intro found
  split
  · exact keeps_raise _
  · apply keeps_bind (careful_upsertQuota id _)
    intro quota
    exact keeps_ret _

theorem careful_adminUpdateUser (id : String) (role : Option Role) (isActive : Option Bool)
    (actorRole : Option Role) (actorUserId : Option String) :
    Careful (adminUpdateUser json id role isActive actorRole actorUserId) := by
  apply keeps_bind (careful_assertAdminRole actorRole)
  intro _
  apply keeps_bind (careful_existingUser id)
  intro found
  split
  · exact keeps_raise _
  · split
    · exact keeps_raise _
    · apply keeps_bind (careful_call (by simp))
      intro updated
      apply keeps_bind (careful_grantIf _ id _)
      intro _
      exact keeps_bind (careful_grantIf _ id _) fun _ => keeps_ret _

theorem careful_syncFromAuth (id : String) (role : Option Role) (isActive : Option Bool) :
    Careful (syncFromAuth json id role isActive) := by
  apply keeps_bind (careful_call (by simp))
  intro user
  exact keeps_bind (careful_grantIf _ id _) fun _ => keeps_ret _

theorem careful_deleteUser (id : String) (actorRole : Option Role) :
    Careful (deleteUser id actorRole) := by
  apply keeps_bind (careful_assertAdminRole actorRole)
  intro _
  apply keeps_bind (careful_existingUser id)
  intro found
  exact keeps_bind (careful_call (by simp)) fun _ => keeps_ret _

theorem careful_adminUpdatePlan (actorRole : Option Role) (planId : String)
    (payload : UpdatePlanDto) : Careful (adminUpdatePlan json actorRole planId payload) := by
  apply keeps_bind (careful_assertAdminRole actorRole)
  intro _
  cases ManagedPlanId.ofName? planId with
  | none => exact keeps_raise _
  | some normalizedId =>
    apply keeps_bind (careful_call (by simp))
    intro existing
    cases existing with
    | none => exact keeps_raise _
    | some row =>
      dsimp only
      split
      · exact keeps_ret _
      · apply keeps_bind (careful_call (by simp))
        intro updated
        exact keeps_bind careful_getPlanCatalog fun _ => keeps_ret _

theorem careful_handle (q : SubscriptionRequest) : Careful (q.handle json) := by
  cases q with
  | quotaSnapshot userId => exact keeps_bind (careful_existingUser userId) fun _ => keeps_ret _
  | activate userId planId => exact careful_activate userId planId
  | setSubscription id planId actorRole actorUserId =>
    exact careful_setUserSubscription id planId actorRole actorUserId
  | updateUser id role isActive actorRole actorUserId =>
    exact careful_adminUpdateUser id role isActive actorRole actorUserId
  | syncFromAuth id role isActive => exact careful_syncFromAuth id role isActive
  | deleteUser id actorRole => exact careful_deleteUser id actorRole
  | updatePlan actorRole planId payload =>
    simp only [SubscriptionRequest.handle]
    split
    · exact careful_adminUpdatePlan actorRole planId payload
    · exact keeps_raise _

end Operations

/-- The tables, and the catalog from which each user's quota row was last written. -/
structure Ledger where
  db : SubscriptionDb
  basis : String → Option ManagedCatalog

/-- A quota row that has been written goes with the catalog its writer had read. -/
def recorded (log : SubscriptionLog) (c : SubscriptionCall) (r : c.Answer)
    (basis : String → Option ManagedCatalog) : String → Option ManagedCatalog :=
  match c, r with
  | .upsertQuota userId _ _, .ok _ => Function.update basis userId (lastCatalog log)
  | _, _ => basis

/-- A call is carried out and answered, carried out and reported as failed, or lost. -/
def Ledger.effect (log : SubscriptionLog) (c : SubscriptionCall) (s : Ledger) (r : c.Answer)
    (s' : Ledger) : Prop :=
  (∃ r', c.serve s.db r' s'.db ∧ (r = r' ∨ ∃ e, r = .error e) ∧
      s'.basis = recorded log c r' s.basis) ∨ ((∃ e, r = .error e) ∧ s' = s)

theorem Ledger.effect_of_serve {log : SubscriptionLog} {c : SubscriptionCall} {s : Ledger}
    {r : c.Answer} {db' : SubscriptionDb} (h : c.serve s.db r db') :
    s.effect log c r ⟨db', recorded log c r s.basis⟩ := .inl ⟨r, h, .inl rfl, rfl⟩

/-- The user service and the catalog edits under concurrent requests. -/
def server (json : PlanCatalogJson) :
    Server subscriptionInterface Failure SubscriptionReply SubscriptionRequest Ledger where
  handler := SubscriptionRequest.handle json
  effect := fun _ log c s r s' => s.effect log c r s'
  change := fun _ _ => False

abbrev SubscriptionStage :=
  Stage subscriptionInterface Failure SubscriptionReply SubscriptionRequest Ledger

abbrev SubscriptionLabel := StageLabel subscriptionInterface SubscriptionRequest

def contract (json : PlanCatalogJson) : (server json).Contract where
  fits := fun _ _ => True
  permits := fun _ => Grounded
  returns := fun _ _ _ => True
  sound := fun _ _ _ _ _ _ _ => trivial
  holds := by
    intro q
    apply (careful_handle q [] trivial).mono
    intro out log _
    cases out <;> trivial

section Invariant

variable {json : PlanCatalogJson}

/-- The limits of a row with a plan are those of the plan in the catalog it was written from. -/
def Written (s : Ledger) : Prop :=
  ∀ q ∈ s.db.quotas.rows, ∀ p, q.planId = some p →
    ∃ catalog, s.basis q.userId = some catalog ∧ q.limits = (catalogEntry catalog p).quota

private theorem recorded_other {log : SubscriptionLog} {c : SubscriptionCall} {r : c.Answer}
    {basis : String → Option ManagedCatalog} {userId : String}
    (h : ∀ u p l, c = .upsertQuota u p l → userId ≠ u) :
    recorded log c r basis userId = basis userId := by
  unfold recorded
  split
  · rw [Function.update_of_ne (h _ _ _ rfl)]
  · rfl

private theorem served_upsert {s s' : SubscriptionDb} {q : UserQuota} {p : SubscriptionPlanId}
    {r : (SubscriptionCall.upsertQuota q.userId p q.limits).Answer}
    (h : (SubscriptionCall.upsertQuota q.userId p q.limits).serve s r s')
    (hq : q ∈ s'.quotas.rows) : ∃ row, r = .ok row := by
  rcases h with ⟨-, hr, -⟩ | ⟨hnone, -, rfl⟩
  · exact ⟨_, hr⟩
  · obtain ⟨a, ha, hid⟩ := s'.owner q hq
    exact (hnone a ha hid).elim

private theorem written_act {s s' : Ledger} {log : SubscriptionLog} {c : SubscriptionCall}
    {r : c.Answer} (hs : Written s) (hp : Grounded log c) (he : s.effect log c r s') :
    Written s' := by
  rcases he with ⟨r', hserve, -, hbasis⟩ | ⟨-, rfl⟩
  · intro q hq p hplan
    rw [hbasis]
    rcases SubscriptionCall.quotas_of_serve hserve hq with ⟨hold, hother⟩ | ⟨p', rfl, hp'⟩
    · rw [recorded_other hother]
      exact hs q hold p hplan
    · rw [hplan] at hp'
      cases hp'
      obtain ⟨row, rfl⟩ := served_upsert hserve hq
      obtain ⟨catalog, hcatalog, hlimits⟩ := hp _ _ _ rfl
      exact ⟨catalog, by simp [recorded, hcatalog], hlimits⟩
  · exact hs

private theorem written_step (x : SubscriptionStage) (l : SubscriptionLabel) (y : SubscriptionStage)
    (hx : Written x.state ∧ ∀ task ∈ x.tasks, (contract json).Kept task)
    (h : (server json).Step x l y) :
    Written y.state ∧ ∀ task ∈ y.tasks, (contract json).Kept task := by
  refine ⟨?_, (contract json).kept_step x l y hx.2 h⟩
  cases h with
  | begin q => exact hx.1
  | act ht he => exact written_act hx.1 (hx.2 _ (List.mem_of_getElem? ht)).1 he
  | crash e ht hl => exact hx.1
  | change hc => exact hc.elim

end Invariant

section Agreement

/-- The plans whose limits are compared before those of a plan. -/
def testedBefore : ManagedPlanId → List ManagedPlanId
  | .enterprise => []
  | .pro => [.enterprise]
  | .student => [.enterprise, .pro]

/-- Neither `maxVms` nor `maxCpu` of the plan is above the limits. -/
def Covers (limits : QuotaLimits) (plan : SubscriptionPlanConfig) : Prop :=
  plan.quota.maxVms ≤ limits.maxVms ∧ plan.quota.maxCpu ≤ limits.maxCpu

/-- A row written from one catalog is still told as its plan by another: its limits stay under
the unlimited ones and cover those of the plan, and of no plan that is compared before. -/
def Recognised (basis catalog : ManagedCatalog) : SubscriptionPlanId → Prop
  | .unlimited => True
  | .managed p =>
    (basis p).quota.maxVms < 9999 ∧ (basis p).quota.maxCpu < 9999 ∧
      Covers (basis p).quota (catalog p) ∧
      ∀ m ∈ testedBefore p, ¬ Covers (basis p).quota (catalog m)

theorem reaches_iff {limits : QuotaLimits} {plan : SubscriptionPlanConfig} :
    reaches limits plan = true ↔ Covers limits plan := by
  simp [reaches, Covers]

theorem resolvePlanFromQuota_managed {limits : QuotaLimits} {catalog : ManagedCatalog}
    {p : ManagedPlanId} :
    resolvePlanFromQuota (some limits) catalog = some (.managed p) ↔
      limits.maxVms < 9999 ∧ limits.maxCpu < 9999 ∧ Covers limits (catalog p) ∧
        ∀ m ∈ testedBefore p, ¬ Covers limits (catalog m) := by
  by_cases hu : unlimitedPlanConfig.quota.maxVms ≤ limits.maxVms ∨
      unlimitedPlanConfig.quota.maxCpu ≤ limits.maxCpu
  · have hnot : ¬ (limits.maxVms < 9999 ∧ limits.maxCpu < 9999) := by
      simp only [unlimitedPlanConfig] at hu
      omega
    simp only [resolvePlanFromQuota, if_pos hu, Option.some.injEq, reduceCtorEq, false_iff]
    intro h
    exact hnot ⟨h.1, h.2.1⟩
  · have hlt : limits.maxVms < 9999 ∧ limits.maxCpu < 9999 := by
      simp only [unlimitedPlanConfig] at hu
      omega
    simp only [resolvePlanFromQuota, if_neg hu, ← reaches_iff, hlt.1, hlt.2, true_and]
    by_cases he : reaches limits (catalog .enterprise)
    · cases p <;> simp [he, testedBefore]
    · by_cases hpro : reaches limits (catalog .pro)
      · cases p <;> simp [he, hpro, testedBefore]
      · by_cases hst : reaches limits (catalog .student)
        · cases p <;> simp [he, hpro, hst, testedBefore]
        · cases p <;> simp [he, hpro, hst]

theorem resolvePlanFromQuota_unlimited {catalog : ManagedCatalog} :
    resolvePlanFromQuota (some unlimitedPlanConfig.quota) catalog = some .unlimited := by
  simp [resolvePlanFromQuota]

variable {json : PlanCatalogJson} {db : SubscriptionDb}

/-- In every reachable state the inferred plan of a user is the stored one exactly when the
current catalog still recognises the limits of the catalog the row was written from. -/
theorem plans_agree_iff (hnew : ∀ q ∈ db.quotas.rows, q.planId = none)
    {trace : List (SubscriptionLabel × SubscriptionStage)} {y : SubscriptionStage}
    (h : Run (server json).Step ⟨⟨db, fun _ => none⟩, []⟩ trace y)
    {user : Account} {quota : UserQuota} {p : SubscriptionPlanId}
    (hlookup : y.state.db.lookup user.id = some (user, some quota)) (hrole : user.role ≠ .admin)
    (hplan : quota.planId = some p) :
    ∃ basis, y.state.basis user.id = some basis ∧
      (resolvePlanForUser user.role (some quota.limits) y.state.db.currentCatalog =
        (quotaSnapshot user.role (some quota)).planId ↔
          Recognised basis y.state.db.currentCatalog p) := by
  have hstart : Written ⟨db, fun _ => none⟩ := by
    intro q hq p hp
    simp [hnew q hq] at hp
  have hwritten := (h.invariant ⟨hstart, by simp⟩ written_step).1
  simp only [SubscriptionDb.lookup, Option.map_eq_some_iff, Prod.mk.injEq] at hlookup
  obtain ⟨a, -, -, hquota⟩ := hlookup
  obtain ⟨hmem, hid⟩ := (Table.find?_eq_some _).mp hquota
  obtain ⟨basis, hbasis, hlimits⟩ := hwritten quota hmem p hplan
  refine ⟨basis, by rw [← hid, hbasis], ?_⟩
  rw [resolvePlanForUser, if_neg hrole, quotaSnapshot, if_neg hrole, hplan, hlimits]
  cases p with
  | unlimited => simp [Recognised, catalogEntry, resolvePlanFromQuota_unlimited]
  | managed m => exact resolvePlanFromQuota_managed

end Agreement

section Sample

private def proQuota : UserQuota := ⟨"u", some (.managed .pro), ⟨6, 8, 16384, 120⟩⟩

private def raisedPro : PlanConfigRow := ⟨.pro, 79, 2, 220, ⟨10, 8, 16384, 120⟩⟩

private theorem grant_run : Reaches (server .unset).Step ⟨⟨SubscriptionDb.sample, fun _ => none⟩, []⟩ fun y =>
    ∃ basis t, y = ⟨⟨SubscriptionDb.sample.putQuota proQuota (by decide), basis⟩, [t]⟩ := by
  apply Reaches.next (.begin (.setSubscription "u" (.managed .pro) (some .admin) (some "a")))
  apply Reaches.next (.act (I := subscriptionInterface) (i := 0) (c := SubscriptionCall.findUser "u")
    (r := .ok (some (⟨"u", .user, true⟩, none))) rfl (Ledger.effect_of_serve ⟨rfl, rfl⟩))
  apply Reaches.next (.act (I := subscriptionInterface) (i := 0) (c := SubscriptionCall.findPlans)
    (r := .ok PlanConfigRow.samples) rfl
    (Ledger.effect_of_serve ⟨PlanConfigRow.samples, .refl _, PlanConfigRow.samples_sorted, rfl, rfl⟩))
  apply Reaches.next (.act (I := subscriptionInterface) (i := 0)
    (c := SubscriptionCall.upsertQuota "u" (.managed .pro) ⟨6, 8, 16384, 120⟩)
    (r := .ok proQuota) rfl
    (Ledger.effect_of_serve (.inl ⟨⟨⟨"u", .user, true⟩, by decide, rfl⟩, rfl, rfl⟩)))
  exact .here ⟨_, _, rfl⟩

/-- The loader accepts the catalog; an admin grants the pro plan and raises its `maxVms` from 6
to 10: the user is told as a student, while the row says pro. -/
theorem raised_limit_demotes :
    (∃ data, loadManagedSubscriptionCatalogFromEnv (.record SeedPlan.samples) = .ok data ∧
      data.mapM PlanData.row = some PlanConfigRow.samples) ∧
    Reaches (server .unset).Step ⟨⟨SubscriptionDb.sample, fun _ => none⟩, []⟩ fun y =>
      y.state.db.lookup "u" = some (⟨"u", .user, true⟩, some proQuota) ∧
        resolvePlanForUser .user (some proQuota.limits) y.state.db.currentCatalog =
          some (.managed .student) ∧
        (quotaSnapshot .user (some proQuota)).planId = some (.managed .pro) := by
  refine ⟨⟨PlanData.samples, by decide +kernel, by decide +kernel⟩, ?_⟩
  apply grant_run.trans
  rintro _ ⟨basis, t, rfl⟩
  apply Reaches.next (.begin (.updatePlan (some .admin) "pro" { maxVms := some 10 }))
  apply Reaches.next (.act (I := subscriptionInterface) (i := 1) (c := SubscriptionCall.findPlan .pro)
    (r := .ok (some ⟨.pro, 79, 2, 220, ⟨6, 8, 16384, 120⟩⟩)) rfl
    (Ledger.effect_of_serve ⟨rfl, rfl⟩))
  apply Reaches.next (.act (I := subscriptionInterface) (i := 1)
    (c := SubscriptionCall.updatePlan .pro { maxVms := some 10 })
    (r := .ok raisedPro) rfl (Ledger.effect_of_serve (by exact ⟨rfl, rfl⟩)))
  apply Reaches.here
  exact ⟨rfl, rfl, rfl⟩

/-- Under the catalog of the grant the limits are recognised. -/
theorem plans_agree_iff_granted : ∃ trace y basis,
    Run (server .unset).Step ⟨⟨SubscriptionDb.sample, fun _ => none⟩, []⟩ trace y ∧
    y.state.db.lookup "u" = some (⟨"u", .user, true⟩, some proQuota) ∧
    y.state.basis "u" = some basis ∧ Recognised basis y.state.db.currentCatalog (.managed .pro) := by
  obtain ⟨trace, y, hrun, basis', t, rfl⟩ := grant_run
  have hlookup : (SubscriptionDb.sample.putQuota proQuota (by decide)).lookup "u" =
      some (⟨"u", .user, true⟩, some proQuota) := by decide
  have hrole : (⟨"u", .user, true⟩ : Account).role ≠ .admin := by decide
  obtain ⟨basis, hbasis, hagree⟩ := plans_agree_iff (by simp [SubscriptionDb.sample]) hrun hlookup hrole rfl
  exact ⟨trace, _, basis, hrun, hlookup, hbasis, hagree.mp rfl⟩

end Sample

end Subscription

end CloudVM
