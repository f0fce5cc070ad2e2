import CloudVM.Split.Catalogs

/-!
# What is sold and what is granted

An activation writes the limits that the user service's own table has for the plan, and that table
is never edited. The payment service shows what it has in memory, which follows its own table. The
two are the same as long as no edit changes a limit.
-/

namespace CloudVM.Catalogs

open Process UserService SubscriptionCall Subscription

section Calls

variable {json : PlanCatalogJson}

/-- A request that does not edit the catalog seeds it from the environment, if at all. -/
def Local (json : PlanCatalogJson) : SubscriptionCall → Prop
  | .createPlans data => loadManagedSubscriptionCatalogFromEnv json = .ok data
  | .updatePlan _ _ => False
  | _ => True

def Reading (json : PlanCatalogJson) : SubscriptionCall → Prop
  | .createPlans data => loadManagedSubscriptionCatalogFromEnv json = .ok data
  | .findPlans => True
  | .ensurePlanConfigTable => True
  | _ => False

private theorem reading_findPlans : findPlans.Only (Reading json) := only_request trivial

theorem reading_getPlanCatalog :
    (UserService.getPlanCatalog json).Only (Reading json) := by
  apply only_bind
  · apply only_tryCatch reading_findPlans
    intro e
    split
    · apply only_bind
      · exact only_request trivial
      · intro _
        exact reading_findPlans
    · trivial
  · intro rows
    split
    · unfold seedPlans
      cases hseed : loadManagedSubscriptionCatalogFromEnv json with
      | error e => trivial
      | ok seed =>
        simp only [ofExcept_ok, ret_bind]
        apply only_bind
        · exact only_request hseed
        · intro _
          apply only_bind reading_findPlans
          intro rows
          split
          · trivial
          · exact only_ofExcept _
    · exact only_ofExcept _

private theorem local_of_reading {c : SubscriptionCall} (h : Reading json c) : Local json c := by
  cases c with
  | createPlans data => exact h
  | findPlans | ensurePlanConfigTable => trivial
  | _ => exact h.elim

private theorem local_getPlanCatalog : (UserService.getPlanCatalog json).Only (Local json) :=
  reading_getPlanCatalog.mono fun _ => local_of_reading

private theorem local_upsertQuota (userId : String) (planId : SubscriptionPlanId) :
    (UserService.upsertQuota json userId planId).Only (Local json) :=
  only_bind local_getPlanCatalog fun _ => only_request trivial

private theorem local_existingUser (userId : String) :
    (existingUser userId).Only (Local json) := by
  apply only_bind
  · exact only_request trivial
  · intro found
    cases found <;> trivial

private theorem local_assertAdminRole (actorRole : Option Role) :
    (assertAdminRole actorRole).Only (Local json) := by
  unfold assertAdminRole
  split <;> trivial

private theorem local_grantIf (needed : Bool) (userId : String) (planId : SubscriptionPlanId) :
    (grantIf json needed userId planId).Only (Local json) := by
  unfold grantIf
  split
  · exact only_bind (local_upsertQuota userId planId) fun _ => trivial
  · trivial

private theorem local_activate (userId : String) (planId : SubscriptionPlanId) :
    (activateSubscriptionPlanFromInternal json userId planId).Only (Local json) := by
  apply only_bind (local_existingUser userId)
  intro found
  exact only_bind (local_upsertQuota userId _) fun _ => trivial

private theorem local_handle {q : SubscriptionRequest}
    (hq : ∀ actorRole planId payload, q ≠ .updatePlan actorRole planId payload) :
    (q.handle json).Only (Local json) := by
  cases q with
  | quotaSnapshot userId => exact only_bind (local_existingUser userId) fun _ => trivial
  | activate userId planId => exact local_activate userId planId
  | setSubscription id planId actorRole actorUserId =>
    apply only_bind (local_assertAdminRole actorRole)
    intro _
    apply only_bind (local_existingUser id)
    intro found
    split
    · trivial
    · exact only_bind (local_upsertQuota id _) fun _ => trivial
  | updateUser id role isActive actorRole actorUserId =>
    apply only_bind (local_assertAdminRole actorRole)
    intro _
    apply only_bind (local_existingUser id)
    intro found
    split
    · trivial
    · split
      · trivial
      · apply only_bind
        · exact only_request trivial
        · intro updated
          apply only_bind (local_grantIf _ id _)
          intro _
          exact only_bind (local_grantIf _ id _) fun _ => trivial
  | syncFromAuth id role isActive =>
    apply only_bind
    · exact only_request trivial
    · intro user
      exact only_bind (local_grantIf _ id _) fun _ => trivial
  | deleteUser id actorRole =>
    apply only_bind (local_assertAdminRole actorRole)
    intro _
    apply only_bind (local_existingUser id)
    intro found
    exact only_bind (only_request trivial) fun _ => trivial
  | updatePlan actorRole planId payload => exact absurd rfl (hq actorRole planId payload)

def readAccount : Event subscriptionInterface → Option Account
  | ⟨.findUser _, .ok (some found)⟩ => some found.1
  | _ => none

def accountRead (log : SubscriptionLog) : Option Account := (log.filterMap readAccount).getLast?

/-- An activation writes the row of its user, with the plan that goes with the account read. -/
def Due (userId : String) (planId : SubscriptionPlanId) (log : SubscriptionLog)
    (c : SubscriptionCall) : Prop :=
  ∀ w plan limits, c = .upsertQuota w plan limits →
    w = userId ∧ ∃ a, accountRead log = some a ∧ plan = finalPlan a.role planId

private theorem accountRead_reading {log : SubscriptionLog} {c : SubscriptionCall} (h : Reading json c)
    (r : c.Answer) : accountRead (log ++ [⟨c, r⟩]) = accountRead log := by
  cases c with
  | createPlans | findPlans | ensurePlanConfigTable => simp [accountRead, readAccount]
  | _ => exact h.elim

private theorem due_getPlanCatalog (userId : String) (planId : SubscriptionPlanId)
    (log : SubscriptionLog) : (UserService.getPlanCatalog json).Wp (Due userId planId)
      (logged fun _ _ => True) (fun _ log' => accountRead log' = accountRead log) log := by
  apply Only.keeps (J := fun log' => accountRead log' = accountRead log) reading_getPlanCatalog _ _
    log rfl
  · rintro log' c hc w plan limits rfl
    exact hc.elim
  · rintro c log' r log'' hc hlog ⟨-, rfl⟩
    rw [accountRead_reading hc, hlog]

private theorem due_activate (userId : String) (planId : SubscriptionPlanId) (log : SubscriptionLog) :
    (activateSubscriptionPlanFromInternal json userId planId).Wp (Due userId planId)
      (logged fun _ _ => True) (fun _ _ => True) log := by
  unfold activateSubscriptionPlanFromInternal existingUser
  rw [wp_bind, wp_bind]
  refine ⟨by rintro w plan limits ⟨⟩, ?_⟩
  rintro (e | (_ | found)) log' ⟨-, rfl⟩
  · trivial
  · trivial
  · have hread : accountRead (log ++ [⟨SubscriptionCall.findUser userId, .ok (some found)⟩]) =
        some found.1 := by
      simp [accountRead, readAccount]
    unfold UserService.upsertQuota
    change ((UserService.getPlanCatalog json >>= _) >>= _ : SubscriptionProcess _).Wp _ _ _ _
    rw [wp_bind, wp_bind]
    apply (due_getPlanCatalog userId planId _).mono
    rintro (e | catalog) log' hlog
    · trivial
    · refine ⟨?_, ?_⟩
      · rintro w plan limits ⟨⟩
        exact ⟨rfl, found.1, hlog.trans hread, rfl⟩
      · rintro (e | row) log'' -
        · trivial
        · trivial

end Calls

section Reads

/-- What a request has read from the two databases. -/
structure Reads where
  own : SubscriptionLog := []
  user : SubscriptionLog := []

def Reads.advance (φ : Reads) : (c : SplitCall) → c.Answer → Reads
  | .own c, r => { φ with own := φ.own ++ [⟨c, r⟩] }
  | .user c, r => { φ with user := φ.user ++ [⟨c, r⟩] }
  | _, _ => φ

/-- Only the payment service edits a catalog; what it keeps in memory is what it read last. -/
def Reads.Permits (json : PlanCatalogJson) (q : SplitRequest) (φ : Reads) : SplitCall → Prop
  | .own c => Local json c ∨ ∃ planId payload, c = .updatePlan planId payload
  | .user c => Grounded φ.user c ∧ Local json c ∧
      ∀ userId planId, q = .user (.activate userId planId) → Due userId planId φ.user c
  | .setPlanCatalog catalog => lastCatalog φ.own = some catalog
  | _ => True

abbrev Moves : (c : SplitCall) → Reads → c.Answer → Reads → Prop :=
  fun c φ r φ' => True ∧ φ' = φ.advance c r

abbrev Safe {α : Type} (json : PlanCatalogJson) (q : SplitRequest) (p : SplitProcess α) : Prop :=
  p.Keeps (Reads.Permits json q) Moves fun _ => True

variable {env : PaymentEnv} {json : PlanCatalogJson} {q : SplitRequest}

theorem loadPlanCatalog_wp (φ : Reads) :
    (loadPlanCatalog env).Wp (Reads.Permits env.json q) Moves
      (Post (fun catalog φ' => lastCatalog φ'.own = some catalog) fun _ _ => True) φ := by
  have hlocal : (UserService.getPlanCatalog env.json).Wp (fun _ c => Local env.json c)
      (logged fun _ _ => True) (fun _ _ => True) φ.own :=
    local_getPlanCatalog.keeps (fun _ _ h => h) (fun _ _ _ _ _ _ _ => trivial) φ.own trivial
  have hwp := (getPlanCatalog_wp φ.own).permits_and hlocal
  unfold loadPlanCatalog own
  apply (hwp.lift Reads.own _ _).mono
  · intro out φ' h
    cases out <;> exact h
  · intro φ' c hc
    exact .inl hc.2
  · rintro φ' c r φ'' ⟨-, rfl⟩
    exact ⟨trivial, rfl⟩

private theorem refreshPlanCatalog_safe : Safe env.json q (refreshPlanCatalog env) := by
  intro φ _
  unfold refreshPlanCatalog
  rw [wp_bind]
  apply (loadPlanCatalog_wp φ).mono
  rintro (e | catalog) φ' hlast
  · trivial
  · exact ⟨hlast, fun _ _ _ => trivial⟩

private theorem getPlanCatalog_safe : Safe env.json q (getPlanCatalog env) := by
  intro φ _
  unfold getPlanCatalog
  refine ⟨trivial, ?_⟩
  rintro (_ | catalog) φ' -
  · change (loadPlanCatalog env >>= _).Wp _ _ _ _
    rw [wp_bind]
    apply (loadPlanCatalog_wp φ').mono
    rintro (e | catalog) φ'' hlast
    · trivial
    · exact ⟨hlast, fun _ _ _ => trivial⟩
  · trivial

private theorem own_safe {c : SubscriptionCall}
    (hc : Local env.json c ∨ ∃ planId payload, c = .updatePlan planId payload) :
    Safe env.json q (own (.call c .ofExcept)) := by
  intro φ _
  refine ⟨hc, ?_⟩
  rintro (e | r) φ' - <;> trivial

private theorem adminUpdatePlan_safe (actorRole : Option Role) (planId : String)
    (payload : UpdatePlanDto) : Safe env.json q (adminUpdatePlan env actorRole planId payload) := by
  unfold adminUpdatePlan
  apply keeps_bind
  · intro φ _
    unfold assertAdminRole
    split <;> trivial
  · intro _
    cases ManagedPlanId.ofName? planId with
    | none => exact keeps_raise _
    | some normalizedId =>
      apply keeps_bind
      · exact own_safe (.inl trivial)
      · rintro (_ | existing)
        · exact keeps_raise _
        · change (if payload = {} then _ else _ : SplitProcess PlanConfigRow).Keeps _ _ _
          split
          · exact keeps_ret _
          · apply keeps_bind
            · exact own_safe (.inr ⟨normalizedId, payload, rfl⟩)
            · intro updated
              exact keeps_bind refreshPlanCatalog_safe fun _ => keeps_ret _

private theorem paymentCall_safe (c : PaymentCall) : Safe env.json q (paymentCall env c) := by
  cases c with
  | getPlanCatalog => exact keeps_attempt getPlanCatalog_safe
  | _ => exact keeps_call (fun _ _ => trivial) fun _ _ _ _ _ => ⟨trivial, keeps_ret _⟩

private theorem user_safe {α : Type} {p : SubscriptionProcess α} (hcareful : Careful p)
    (hlocal : p.Only (Local env.json))
    (hdue : ∀ log, p.Wp (fun log c => ∀ userId planId, q = .user (.activate userId planId) →
      Due userId planId log c) (logged fun _ _ => True) (fun _ _ => True) log) :
    Safe env.json q (user p) := by
  intro φ _
  have hlocal' : p.Wp (fun _ c => Local env.json c) (logged fun _ _ => True) (fun _ _ => True)
      φ.user :=
    hlocal.keeps (fun _ _ h => h) (fun _ _ _ _ _ _ _ => trivial) φ.user trivial
  have hwp := (hcareful φ.user trivial).permits_and (hlocal'.permits_and (hdue φ.user))
  unfold user
  apply hwp.lift Reads.user
  · intro φ' c hc
    exact hc
  · rintro φ' c r φ'' ⟨-, rfl⟩
    exact ⟨trivial, rfl⟩

private theorem plain_safe {r : SubscriptionRequest} (hr : ∀ u p, r ≠ .activate u p)
    (hedit : ∀ actorRole planId payload, r ≠ .updatePlan actorRole planId payload) :
    Safe env.json (.user r) (user (r.handle env.json)) := by
  apply user_safe (careful_handle r) (local_handle hedit)
  intro log
  apply wp_true
  intro log' c userId planId h
  exact absurd (by simpa using h) (hr userId planId)

private theorem userRequest_safe (r : SubscriptionRequest) :
    Safe env.json (.user r) (userRequest env r) := by
  cases r with
  | activate userId planId =>
    apply keeps_bind
    · exact keeps_call (fun _ _ => trivial) fun _ _ _ _ _ => ⟨trivial, keeps_ret _⟩
    · intro _
      apply user_safe (careful_activate userId planId) (local_activate userId planId)
      intro log
      apply (due_activate userId planId log).permits_mono
      rintro log' c hc u p ⟨⟩
      exact hc
  | updatePlan actorRole planId payload => exact keeps_raise _
  | _ => exact plain_safe (by simp) (by simp)

private theorem handle_safe (q : SplitRequest) : Safe env.json q (q.handle env) := by
  cases q with
  | payment q => exact keeps_bind (keeps_expand paymentCall_safe _) fun _ => keeps_ret _
  | updatePlan actorRole planId payload =>
    simp only [SplitRequest.handle]
    split
    · exact keeps_bind (adminUpdatePlan_safe actorRole planId payload) fun _ => keeps_ret _
    · exact keeps_raise _
  | publicPlans =>
    apply keeps_bind
    · exact keeps_bind getPlanCatalog_safe fun _ => keeps_ret _
    · intro _
      exact keeps_ret _
  | user q => exact keeps_bind (userRequest_safe q) fun _ => keeps_ret _

def reads (env : PaymentEnv) : (splitServer env).Phased Reads where
  start := fun _ => {}
  advance := fun _ => Reads.advance
  fits := fun _ _ => True
  permits := Reads.Permits env.json
  returns := fun _ _ _ => True
  sound := fun _ _ _ _ _ _ _ => trivial
  holds := by
    intro q
    apply (handle_safe q {} trivial).mono
    intro out φ _
    cases out <;> trivial

end Reads

section Tables

/-- The rows were returned by some read of the catalog. -/
def WasRead (log : SubscriptionLog) (rows : List PlanConfigRow) : Prop :=
  ∃ e ∈ log, readRows e = some rows

theorem wasRead_concat {log : SubscriptionLog} {e : Event subscriptionInterface}
    {rows : List PlanConfigRow} :
    WasRead (log ++ [e]) rows ↔ WasRead log rows ∨ readRows e = some rows := by
  constructor
  · rintro ⟨e', he, hr⟩
    rcases List.mem_append.mp he with he | he
    · exact .inl ⟨e', he, hr⟩
    · obtain rfl := List.mem_singleton.mp he
      exact .inr hr
  · rintro (⟨e', he, hr⟩ | hr)
    · exact ⟨e', List.mem_append_left _ he, hr⟩
    · exact ⟨e, List.mem_append_right _ (List.mem_singleton_self e), hr⟩

theorem wasRead_of_lastCatalog {log : SubscriptionLog} {catalog : ManagedCatalog}
    (h : lastCatalog log = some catalog) :
    ∃ rows, WasRead log rows ∧ buildPlanCatalogFromRows rows = .ok catalog := by
  obtain ⟨rows, hlast, hbuild⟩ := Option.bind_eq_some_iff.mp h
  obtain ⟨e, he, hr⟩ := List.mem_filterMap.mp (List.mem_of_getLast? hlast)
  refine ⟨rows, ⟨e, he, hr⟩, ?_⟩
  cases hcatalog : buildPlanCatalogFromRows rows with
  | error e => simp [hcatalog, Except.toOption] at hbuild
  | ok catalog' =>
    rw [hcatalog] at hbuild
    obtain rfl := Option.some.inj hbuild
    rfl

variable {env : PaymentEnv} {json : PlanCatalogJson} {db db' : SubscriptionDb}

theorem planRow?_of_perm {rows : List PlanConfigRow} (h : rows.Perm db.plans.rows)
    (p : ManagedPlanId) : planRow? rows p = db.plans.find? p := by
  have hnodup : (rows.map PlanConfigRow.planId).Nodup :=
    (h.map PlanConfigRow.planId).nodup_iff.mpr db.plans.nodup
  have htable : planRow? rows p = (⟨rows, hnodup⟩ : PlanTable).find? p := rfl
  rw [htable]
  cases hfind : db.plans.find? p with
  | none =>
    rw [Table.find?_eq_none] at hfind ⊢
    intro row hrow
    exact hfind row (h.mem_iff.mp hrow)
  | some row =>
    rw [Table.find?_eq_some] at hfind ⊢
    exact ⟨h.mem_iff.mpr hfind.1, hfind.2⟩

theorem plan_stays {c : SubscriptionCall} {r : c.Answer} (hc : Local json c)
    (h : c.mayServe db r db') {p : ManagedPlanId} {row : PlanConfigRow}
    (hrow : db.plans.find? p = some row) : db'.plans.find? p = some row := by
  rcases carried_of_mayServe h with rfl | ⟨r', h⟩
  · exact hrow
  · rcases plans_of_serve h with hplans | ⟨data, rows, -, -, hplans⟩ |
      ⟨planId, payload, old, new, rfl, -, -, -⟩
    · rw [hplans, hrow]
    · rw [hplans, find?_insertPlans, hrow]
      rfl
    · exact hc.elim

theorem readRows_of_mayServe {c : SubscriptionCall} {r : c.Answer} (h : c.mayServe db r db')
    {rows : List PlanConfigRow} (hr : readRows ⟨c, r⟩ = some rows) :
    db' = db ∧ rows.Perm db.plans.rows := by
  cases c with
  | findPlans =>
    obtain ⟨rfl, ⟨rows', hperm, rfl⟩ | ⟨e, rfl⟩⟩ := findPlans_of_mayServe h
    · obtain rfl : rows' = rows := Option.some.inj hr
      exact ⟨rfl, hperm⟩
    · cases hr
  | _ => cases hr

variable {base : ManagedPlanId → QuotaLimits}

/-- The limits of every plan in the rows are those of `base`. -/
def AtBase (base : ManagedPlanId → QuotaLimits) (rows : List PlanConfigRow) : Prop :=
  ∀ p row, planRow? rows p = some row → row.quota = base p

/-- The rows that the environment seeds are at `base`. -/
def SeedsAt (base : ManagedPlanId → QuotaLimits) (json : PlanCatalogJson) : Prop :=
  ∀ data rows, loadManagedSubscriptionCatalogFromEnv json = .ok data →
    data.mapM PlanData.row = some rows → AtBase base rows

def KeepsLimits (db : SubscriptionDb) (c : SubscriptionCall) : Prop :=
  ∀ planId payload, c = .updatePlan planId payload → ∀ old row, db.plans.find? planId = some old →
    payload.patch old = some row → row.quota = old.quota

theorem patch_planId {payload : UpdatePlanDto} {old row : PlanConfigRow}
    (h : payload.patch old = some row) : row.planId = old.planId := by
  simp only [UpdatePlanDto.patch, Option.bind_eq_bind, Option.bind_eq_some_iff] at h
  obtain ⟨vmHoursMonthly, -, maxVms, -, maxCpu, -, maxRamMb, -, maxDiskGb, -, h⟩ := h
  obtain rfl := Option.some.inj h
  rfl

theorem atBase_call {c : SubscriptionCall} {r : c.Answer} (hseeds : SeedsAt base json)
    (hc : Local json c ∨ ∃ planId payload, c = .updatePlan planId payload) (hkeeps : KeepsLimits db c)
    (hdb : AtBase base db.plans.rows) (h : c.mayServe db r db') : AtBase base db'.plans.rows := by
  rcases carried_of_mayServe h with rfl | ⟨r', h⟩
  · exact hdb
  · intro p row hrow
    change db'.plans.find? p = some row at hrow
    rcases plans_of_serve h with hplans | ⟨data, rows, rfl, hrows, hplans⟩ |
      ⟨planId, payload, old, new, rfl, hold, hpatch, hplans⟩
    · rw [hplans] at hrow
      exact hdb p row hrow
    · rw [hplans, find?_insertPlans, Option.or_eq_some_iff] at hrow
      rcases hrow with hrow | ⟨-, hrow⟩
      · exact hdb p row hrow
      · rcases hc with hload | ⟨planId, payload, h⟩
        · exact hseeds data rows hload hrows p row hrow
        · cases h
    · rw [hplans, Table.find?_upsert] at hrow
      split at hrow
      · rename_i hp
        obtain rfl := Option.some.inj hrow
        have hid : planId = p := by
          rw [← hp, patch_planId hpatch]
          exact ((Table.find?_eq_some _).mp hold).2.symm
        subst hid
        rw [hkeeps planId payload rfl old new hold hpatch]
        exact hdb planId old hold
      · exact hdb p row hrow

theorem catalog_atBase {rows : List PlanConfigRow} {catalog : ManagedCatalog}
    (hrows : AtBase base rows) (h : buildPlanCatalogFromRows rows = .ok catalog) (p : ManagedPlanId) :
    (catalog p).quota = base p := by
  obtain ⟨row, hrow, hcatalog⟩ := buildPlanCatalogFromRows_ok.mp h p
  rw [hcatalog]
  exact hrows p row hrow

end Tables

end CloudVM.Catalogs
