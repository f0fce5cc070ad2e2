import CloudVM.Split.Sold

/-!
# Granted as sold

In every run an activation writes what the user service's table says at that moment. As long as no
edit changes a limit, both tables, the memory of the payment service and all that was read from
them have the limits that were seeded.
-/

namespace CloudVM.Catalogs

open Process UserService SubscriptionCall Subscription

section Effects

variable {json : PlanCatalogJson} {s s' : SplitBilling} {c : SplitCall} {r : c.Answer}

private theorem payment_of_mayServe {c : PaymentCall} {r : c.Answer} {pay pay' : PaymentStore}
    (h : c.mayServe json pay r pay') (hcatalog : c ≠ .getPlanCatalog)
    (haccess : ∀ u, c ≠ .subscriptionAccess u) (hactivate : ∀ id u p, c ≠ .activate id u p) :
    pay'.subs = pay.subs ∧ pay'.planCatalog = pay.planCatalog := by
  rcases PaymentCall.carried_of_mayServe h with rfl | ⟨r', h⟩
  · exact ⟨rfl, rfl⟩
  · cases c with
    | getPlanCatalog => exact absurd rfl hcatalog
    | subscriptionAccess u => exact absurd rfl (haccess u)
    | activate id u p => exact absurd rfl (hactivate id u p)
    | createEvent eventId type =>
      rcases h with ⟨hnew, -, rfl⟩ | ⟨-, -, rfl⟩
      · exact ⟨rfl, rfl⟩
      · exact ⟨rfl, rfl⟩
    | createPayment data =>
      rcases h with ⟨id, hid, howner, -, rfl⟩ | ⟨-, -, rfl⟩
      · exact ⟨rfl, rfl⟩
      · exact ⟨rfl, rfl⟩
    | _ =>
      obtain ⟨-, rfl⟩ := h
      exact ⟨rfl, rfl⟩

/-- Each table of plans is written by its own service, and the catalog in memory is the old one or
was just put there. -/
structure Leaves (c : SplitCall) (s s' : SplitBilling) : Prop where
  user : s'.user = s.user ∨ ∃ d, c = .user d
  own : s'.pay.subs = s.pay.subs ∨ ∃ d, c = .own d
  memory : s'.pay.planCatalog = s.pay.planCatalog ∨
    ∃ catalog, c = .setPlanCatalog catalog ∧ s'.pay.planCatalog = some catalog

theorem leaves_of_effect (h : splitEffect json c s r s') : Leaves c s s' := by
  have hsame : s' = s → Leaves c s s' := by
    rintro rfl
    exact ⟨.inl rfl, .inl rfl, .inl rfl⟩
  cases c with
  | payment c =>
    cases c with
    | activate id u p =>
      rcases h with h | rfl
      · exact hsame h
      · exact ⟨.inl rfl, .inl rfl, .inl rfl⟩
    | studentVerification | subscriptionAccess | getPlanCatalog => exact hsame h
    | _ =>
      obtain ⟨pay, hpay, rfl⟩ := h
      obtain ⟨hsubs, hcatalog⟩ := payment_of_mayServe hpay (by simp) (by simp) (by simp)
      exact ⟨.inl rfl, .inl hsubs, .inl hcatalog⟩
  | own c =>
    obtain ⟨subs, -, rfl⟩ := h
    exact ⟨.inl rfl, .inr ⟨c, rfl⟩, .inl rfl⟩
  | user d =>
    obtain ⟨user, -, rfl⟩ := h
    exact ⟨.inr ⟨d, rfl⟩, .inl rfl, .inl rfl⟩
  | planCatalog => exact hsame h.2
  | setPlanCatalog catalog =>
    obtain rfl := h
    exact ⟨.inl rfl, .inl rfl, .inr ⟨catalog, rfl, rfl⟩⟩
  | receive u p => exact hsame h.2

end Effects

section Granted

variable {env : PaymentEnv} {x y : SplitStage} {l : SplitLabel}

abbrev readsOf (env : PaymentEnv) (task : SplitTask) : Reads := (reads env).phase task

/-- What a request has read in the user service is still there. -/
def Fresh (env : PaymentEnv) (x : SplitStage) : Prop :=
  ∀ task ∈ x.tasks, ∀ rows, WasRead (readsOf env task).user rows → ∀ p row,
    planRow? rows p = some row → x.state.user.plans.find? p = some row

private theorem fresh_act {i : ℕ} {c : SplitCall} {r : c.Answer} (hk : (reads env).Kept x)
    (hx : Fresh env x) (h : (splitServer env).Step x (.act i c r) y) : Fresh env y := by
  obtain ⟨task, task', hi, -, htasks, -, hpermits, hphase, heffect⟩ := hk.act h
  have hm : task ∈ x.tasks := List.mem_of_getElem? hi
  have hphase' : readsOf env task' = (readsOf env task).advance c r := hphase
  -- what was read before stays, whatever the call is
  have hstays : ∀ b ∈ x.tasks, ∀ rows, WasRead (readsOf env b).user rows → ∀ p row,
      planRow? rows p = some row → y.state.user.plans.find? p = some row := by
    intro b hb rows hrows p row hrow
    have hold := hx b hb rows hrows p row hrow
    rcases (leaves_of_effect heffect).user with hsame | ⟨d, rfl⟩
    · rw [hsame]
      exact hold
    · obtain ⟨user, huser, hstate⟩ := heffect
      rw [hstate]
      exact plan_stays hpermits.2.1 huser hold
  intro b hb
  rw [htasks] at hb
  rcases mem_set_cases hb with rfl | ⟨j, -, hj⟩
  · rw [hphase']
    cases c with
    | user c =>
      intro rows hrows p row hrow
      obtain ⟨user, huser, hstate⟩ := heffect
      rcases wasRead_concat.mp hrows with hold | hnew
      · exact hstays task hm rows hold p row hrow
      · obtain ⟨hsame, hperm⟩ := readRows_of_mayServe huser hnew
        rw [hstate, hsame, ← planRow?_of_perm hperm]
        exact hrow
    | _ => exact hstays task hm
  · exact hstays b (List.mem_of_getElem? hj)

private theorem not_wasRead_nil (rows : List PlanConfigRow) : ¬ WasRead [] rows := by
  rintro ⟨e, he, -⟩
  cases he

theorem fresh_step (hk : (reads env).Kept x) (hx : Fresh env x) (h : (splitServer env).Step x l y) :
    Fresh env y := by
  cases l with
  | act i c r => exact fresh_act hk hx h
  | begin q =>
    cases h
    intro b hb rows hrows
    rcases List.mem_append.mp hb with hb | hb
    · exact hx b hb rows hrows
    · obtain rfl := List.mem_singleton.mp hb
      exact absurd hrows (not_wasRead_nil rows)
  | crash =>
    cases h with
    | @crash s tasks i task e hi hl =>
      intro b hb
      rcases mem_set_cases hb with rfl | ⟨j, -, hj⟩
      · exact hx task (List.mem_of_getElem? hi)
      · exact hx b (List.mem_of_getElem? hj)
  | change =>
    cases h with
    | change hc =>
      intro b hb
      rw [hc.1]
      exact hx b hb

theorem catalog_of_fresh {task : SplitTask} {catalog : ManagedCatalog} (hx : Fresh env x)
    (hm : task ∈ x.tasks) (h : lastCatalog (readsOf env task).user = some catalog) :
    x.state.user.Complete ∧ catalog = x.state.user.currentCatalog := by
  obtain ⟨rows, hrows, hbuild⟩ := wasRead_of_lastCatalog h
  constructor
  · intro p
    obtain ⟨row, hrow, -⟩ := buildPlanCatalogFromRows_ok.mp hbuild p
    rw [hx task hm rows hrows p row hrow]
    rfl
  · funext p
    obtain ⟨row, hrow, hcatalog⟩ := buildPlanCatalogFromRows_ok.mp hbuild p
    have htable : planRow? x.state.user.plans.rows p = some row := hx task hm rows hrows p row hrow
    simp [hcatalog, SubscriptionDb.currentCatalog, managedCatalog, htable]

/-- An activation that the payment service has asked for writes a quota row; `a` is the account
that it has read. -/
structure Activates (env : PaymentEnv) (x : SplitStage) (l : SplitLabel) (y : SplitStage)
    (userId : String) (planId : SubscriptionPlanId) (a : Account) (row : UserQuota) : Prop where
  written : ∃ i plan r task, l = .act i (SplitCall.user (.upsertQuota userId plan row.limits)) r ∧
    x.tasks[i]? = some task ∧ task.request = .user (.activate userId planId) ∧
    accountRead (readsOf env task).user = some a ∧ row.planId = some plan
  stored : y.state.user.quotas.find? userId = some row

theorem limits_of_activation (hk : (reads env).Kept x) (hx : Fresh env x)
    (h : (splitServer env).Step x l y) {userId : String} {planId : SubscriptionPlanId} {a : Account}
    {row : UserQuota} (ha : Activates env x l y userId planId a row) :
    x.state.user.Complete ∧ row.planId = some (finalPlan a.role planId) ∧
    row.limits = (catalogEntry x.state.user.currentCatalog (finalPlan a.role planId)).quota := by
  obtain ⟨i, plan, r, task, rfl, hi, hq, hread, hplan⟩ := ha.written
  obtain ⟨task₀, task', hi₀, -, -, -, ⟨hgrounded, -, hdue⟩, -, -⟩ := hk.act h
  obtain rfl : task₀ = task := Option.some.inj (hi₀.symm.trans hi)
  obtain ⟨catalog, hlast, hlimits⟩ := hgrounded userId plan row.limits rfl
  obtain ⟨-, a', hread', rfl⟩ := hdue userId planId hq userId plan row.limits rfl
  obtain rfl : a' = a := Option.some.inj (hread'.symm.trans hread)
  obtain ⟨hcomplete, rfl⟩ := catalog_of_fresh hx (List.mem_of_getElem? hi) hlast
  exact ⟨hcomplete, hplan, hlimits⟩

end Granted

section Level

variable {env : PaymentEnv} {x y : SplitStage} {l : SplitLabel} {base : ManagedPlanId → QuotaLimits}

/-- Everywhere the limits are those of `base`. -/
structure Level (env : PaymentEnv) (base : ManagedPlanId → QuotaLimits) (x : SplitStage) : Prop where
  user : AtBase base x.state.user.plans.rows
  own : AtBase base x.state.pay.subs.plans.rows
  memory : ∀ catalog, x.state.pay.planCatalog = some catalog → ∀ p, (catalog p).quota = base p
  reads : ∀ task ∈ x.tasks, ∀ rows, WasRead (readsOf env task).own rows → AtBase base rows

def NoLimitEdited (x : SplitStage) (l : SplitLabel) : Prop :=
  ∀ i c r, l = .act i (SplitCall.own c) r → KeepsLimits x.state.pay.subs c

private theorem level_act {i : ℕ} {c : SplitCall} {r : c.Answer} (hseeds : SeedsAt base env.json)
    (hk : (reads env).Kept x) (hx : Level env base x) (hl : NoLimitEdited x (.act i c r))
    (h : (splitServer env).Step x (.act i c r) y) : Level env base y := by
  obtain ⟨task, task', hi, -, htasks, -, hpermits, hphase, heffect⟩ := hk.act h
  have hm : task ∈ x.tasks := List.mem_of_getElem? hi
  have hphase' : readsOf env task' = (readsOf env task).advance c r := hphase
  have hleaves := leaves_of_effect heffect
  constructor
  · rcases hleaves.user with hsame | ⟨d, rfl⟩
    · rw [hsame]
      exact hx.user
    · obtain ⟨user, huser, hstate⟩ := heffect
      rw [hstate]
      apply atBase_call hseeds (.inl hpermits.2.1) _ hx.user huser
      rintro planId payload rfl
      exact hpermits.2.1.elim
  · rcases hleaves.own with hsame | ⟨d, rfl⟩
    · rw [hsame]
      exact hx.own
    · obtain ⟨subs, hsubs, hstate⟩ := heffect
      rw [hstate]
      exact atBase_call hseeds hpermits (hl i d r rfl) hx.own hsubs
  · intro catalog hcatalog
    rcases hleaves.memory with hsame | ⟨catalog', rfl, hnew⟩
    · rw [hsame] at hcatalog
      exact hx.memory catalog hcatalog
    · rw [hnew] at hcatalog
      obtain rfl := Option.some.inj hcatalog
      obtain ⟨rows, hrows, hbuild⟩ := wasRead_of_lastCatalog hpermits
      exact catalog_atBase (hx.reads task hm rows hrows) hbuild
  · intro b hb rows hrows
    rw [htasks] at hb
    rcases mem_set_cases hb with rfl | ⟨j, -, hj⟩
    · rw [hphase'] at hrows
      cases c with
      | own c =>
        obtain ⟨subs, hsubs, -⟩ := heffect
        rcases wasRead_concat.mp hrows with hold | hnew
        · exact hx.reads task hm rows hold
        · obtain ⟨-, hperm⟩ := readRows_of_mayServe hsubs hnew
          intro p row hrow
          rw [planRow?_of_perm hperm] at hrow
          exact hx.own p row hrow
      | _ => exact hx.reads task hm rows hrows
    · exact hx.reads b (List.mem_of_getElem? hj) rows hrows

theorem level_step (hseeds : SeedsAt base env.json) (hk : (reads env).Kept x)
    (hx : Level env base x) (hl : NoLimitEdited x l) (h : (splitServer env).Step x l y) :
    Level env base y := by
  cases l with
  | act i c r => exact level_act hseeds hk hx hl h
  | begin q =>
    cases h
    refine ⟨hx.user, hx.own, hx.memory, ?_⟩
    intro b hb rows hrows
    rcases List.mem_append.mp hb with hb | hb
    · exact hx.reads b hb rows hrows
    · obtain rfl := List.mem_singleton.mp hb
      exact absurd hrows (not_wasRead_nil rows)
  | crash =>
    cases h with
    | @crash s tasks i task e hi hl =>
      refine ⟨hx.user, hx.own, hx.memory, ?_⟩
      intro b hb
      rcases mem_set_cases hb with rfl | ⟨j, -, hj⟩
      · exact hx.reads task (List.mem_of_getElem? hi)
      · exact hx.reads b (List.mem_of_getElem? hj)
  | change =>
    cases h with
    | change hc =>
      obtain ⟨huser, -, hplans, hmemory⟩ := hc
      constructor
      · rw [huser]
        exact hx.user
      · rw [hplans]
        exact hx.own
      · intro catalog hcatalog
        rcases hmemory with hsame | hnone
        · rw [hsame] at hcatalog
          exact hx.memory catalog hcatalog
        · rw [hnone] at hcatalog
          cases hcatalog
      · exact hx.reads

private theorem atBase_of_perm {db : SubscriptionDb} {rows : List PlanConfigRow}
    (hdb : AtBase base db.plans.rows) (h : rows.Perm db.plans.rows) : AtBase base rows := by
  intro p row hrow
  rw [planRow?_of_perm h] at hrow
  exact hdb p row hrow

private theorem loaded_atBase {json : PlanCatalogJson} {db : SubscriptionDb}
    (hseeds : SeedsAt base json) (hdb : AtBase base db.plans.rows) :
    (UserService.getPlanCatalog json).Wp (fun _ _ => True) mayServe
      (Post (fun catalog _ => ∀ p, (catalog p).quota = base p) fun _ _ => True) db := by
  have hbuild : ∀ (rows : List PlanConfigRow) (t : SubscriptionDb), AtBase base rows →
      (Process.ofExcept (buildPlanCatalogFromRows rows) : SubscriptionProcess ManagedCatalog).Wp
        (fun _ _ => True) mayServe
        (Post (fun catalog _ => ∀ p, (catalog p).quota = base p) fun _ _ => True) t := by
    intro rows t hrows
    rw [wp_ofExcept]
    cases hcatalog : buildPlanCatalogFromRows rows with
    | error e => trivial
    | ok catalog => exact catalog_atBase hrows hcatalog
  unfold UserService.getPlanCatalog
  rw [wp_bind]
  apply (readPlans_keeps db).mono
  rintro (e | rows) t hread
  · trivial
  · obtain ⟨rfl, hperm⟩ := hread
    simp only [post_ok]
    split
    · unfold seedPlans
      cases hload : loadManagedSubscriptionCatalogFromEnv json with
      | error e => trivial
      | ok seed =>
        simp only [ofExcept_ok, ret_bind]
        refine ⟨trivial, ?_⟩
        rintro (e | u) t' hcreate
        · trivial
        · have ht' : AtBase base t'.plans.rows := by
            have hlocal : Local json (.createPlans seed) := hload
            apply atBase_call hseeds (.inl hlocal) _ hdb hcreate
            rintro planId payload ⟨⟩
          change (UserService.findPlans >>= _).Wp _ _ _ _
          rw [wp_bind]
          apply (findPlans_wp t').mono
          rintro (e | rows') t'' hseeded
          · trivial
          · obtain ⟨rfl, hperm'⟩ := hseeded
            simp only [post_ok]
            split
            · trivial
            · exact hbuild rows' t'' (atBase_of_perm ht' hperm')
    · exact hbuild rows t (atBase_of_perm hdb hperm)

theorem shows_memory (env : PaymentEnv) {s : SplitBilling} {catalog : ManagedCatalog}
    (h : s.pay.planCatalog = some catalog) (p : ManagedPlanId) :
    Shows env s p (catalog p).quota := by
  have hmem : toPublicPlan catalog p ∈
      (requiredPlanIds.map (toPublicPlan catalog)).mergeSort fun a b => a.rank ≤ b.rank := by
    apply List.mem_mergeSort.mpr
    apply List.mem_map_of_mem
    cases p <;> decide
  exact ⟨_, s, ⟨_, s, ⟨h.symm, rfl⟩, rfl, rfl⟩, _, hmem, rfl, rfl⟩

theorem shows_atBase (hseeds : SeedsAt base env.json) (hx : Level env base x) {p : ManagedPlanId}
    {limits : QuotaLimits} (h : Shows env x.state p limits) : limits = base p := by
  have hshown : ∀ (catalog : ManagedCatalog), (∀ p, (catalog p).quota = base p) →
      ∀ plan ∈ (requiredPlanIds.map (toPublicPlan catalog)).mergeSort fun a b => a.rank ≤ b.rank,
        plan.quota = base plan.id := by
    intro catalog hcatalog plan hplan
    obtain ⟨q, -, rfl⟩ := List.mem_map.mp (List.mem_mergeSort.mp hplan)
    exact hcatalog q
  have hload : (loadPlanCatalog env).Wp (fun _ _ => True) (splitEffect env.json)
      (Post (fun catalog _ => ∀ p, (catalog p).quota = base p) fun _ _ => True) x.state := by
    unfold loadPlanCatalog own
    apply ((loaded_atBase hseeds hx.own).lift (fun s : SplitBilling => s.pay.subs) _ _).mono
    · rintro (e | catalog) s hout
      · trivial
      · exact hout
    · intro s c _
      trivial
    · rintro s c r s' ⟨subs, hsubs, rfl⟩
      exact hsubs
  have hwp : (getPublicPlans env).Wp (fun _ _ => True) (splitEffect env.json)
      (Post (fun plans _ => ∀ plan ∈ plans, plan.quota = base plan.id) fun _ _ => True) x.state := by
    unfold getPublicPlans getPlanCatalog
    refine ⟨trivial, ?_⟩
    rintro r s ⟨rfl, rfl⟩
    cases hmemory : x.state.pay.planCatalog with
    | some catalog => exact hshown catalog (hx.memory catalog hmemory)
    | none =>
      change ((loadPlanCatalog env >>= _) >>= _ : SplitProcess (List PublicPlan)).Wp _ _ _ _
      rw [wp_bind, wp_bind]
      apply hload.mono
      rintro (e | catalog) s hout
      · trivial
      · refine ⟨trivial, ?_⟩
        intro _ _ _
        exact hshown catalog hout
  obtain ⟨plans, s', hends, plan, hplan, rfl, rfl⟩ := h
  exact hwp.ends hends plan hplan

end Level

section Claim

variable {env : PaymentEnv} {s : SplitBilling} {x y : SplitStage} {l : SplitLabel}
  {trace : List (SplitLabel × SplitStage)} {base : ManagedPlanId → QuotaLimits}

/-- Both tables, the memory and the environment have the limits of `base`. -/
structure Seeded (env : PaymentEnv) (base : ManagedPlanId → QuotaLimits) (s : SplitBilling) :
    Prop where
  seeds : SeedsAt base env.json
  user : AtBase base s.user.plans.rows
  own : AtBase base s.pay.subs.plans.rows
  memory : ∀ catalog, s.pay.planCatalog = some catalog → ∀ p, (catalog p).quota = base p

theorem level_seeded (hs : Seeded env base s) : Level env base ⟨s, []⟩ :=
  ⟨hs.user, hs.own, hs.memory, by simp⟩

theorem level_of_run (hs : Seeded env base s) (h : Run (splitServer env).Step ⟨s, []⟩ trace x)
    (hl : Along NoLimitEdited ⟨s, []⟩ trace) : Level env base x := by
  have hstart : (reads env).Kept ⟨s, []⟩ ∧ Level env base ⟨s, []⟩ :=
    ⟨by simp [Server.Phased.Kept], level_seeded hs⟩
  apply (h.invariant_along (J := fun z => (reads env).Kept z ∧ Level env base z) _ hstart hl).2
  intro t l u ht hl hstep
  exact ⟨(reads env).kept_step ht.1 hstep, level_step hs.seeds ht.1 ht.2 hl hstep⟩

theorem fresh_of_run (h : Run (splitServer env).Step ⟨s, []⟩ trace x) :
    (reads env).Kept x ∧ Fresh env x := by
  have hstart : (reads env).Kept ⟨s, []⟩ ∧ Fresh env ⟨s, []⟩ :=
    ⟨by simp [Server.Phased.Kept], by simp [Fresh]⟩
  apply h.invariant (J := fun z => (reads env).Kept z ∧ Fresh env z) hstart
  intro t l u ht hstep
  exact ⟨(reads env).kept_step ht.1 hstep, fresh_step ht.1 ht.2 hstep⟩

/-- **Sold and granted.** An activation grants what is shown exactly when the user service's own
table has the limits that are shown. That is so as long as no edit changes a limit, for everybody
but administrators. -/
theorem sold_is_granted (h : Run (splitServer env).Step ⟨s, []⟩ trace x)
    (hstep : (splitServer env).Step x l y) {userId : String} {p : ManagedPlanId} {a : Account}
    {row : UserQuota} (ha : Activates env x l y userId (.managed p) a row) :
    ((∀ limits, Shows env x.state p limits → row.limits = limits) ↔
      ∀ limits, Shows env x.state p limits →
        (catalogEntry x.state.user.currentCatalog (finalPlan a.role (.managed p))).quota = limits) ∧
    ∀ base, Seeded env base s → Along NoLimitEdited ⟨s, []⟩ trace → a.role ≠ .admin →
      ∀ limits, Shows env x.state p limits → row.limits = limits := by
  obtain ⟨hk, hfresh⟩ := fresh_of_run h
  obtain ⟨hcomplete, -, hlimits⟩ := limits_of_activation hk hfresh hstep ha
  constructor
  · rw [hlimits]
  · intro base hs hl hrole limits hshows
    have hlevel := level_of_run hs h hl
    obtain ⟨plan, hplan⟩ := Option.isSome_iff_exists.mp (hcomplete p)
    have htable : planRow? x.state.user.plans.rows p = some plan := hplan
    have hfinal : finalPlan a.role (.managed p) = .managed p := if_neg hrole
    calc row.limits
      _ = plan.quota := by
        rw [hlimits, hfinal]
        simp [catalogEntry, SubscriptionDb.currentCatalog, managedCatalog, htable,
          PlanConfigRow.config]
      _ = base p := hlevel.user p plan hplan
      _ = limits := (shows_atBase hs.seeds hlevel hshows).symm

end Claim

section Sample

private def studentPayment : PaymentRow :=
  { id := "p1", userId := "u", planId := some "student", amount := 29
    method := some "stripe:cs_test_a1:plan:student:usd:9.28" }

private def shop (plans : PlanTable) : SplitBilling where
  pay :=
    { subs := SubscriptionDb.sample.setPlans plans
      payments := ⟨[studentPayment], by decide⟩
      owner := by simp [studentPayment, SubscriptionDb.sample, SubscriptionDb.setPlans]
      events := .empty
      planCatalog := some (managedCatalog plans.rows) }
  user := SubscriptionDb.sample
  sent := []

/-- Two services that have seeded the same catalog, and a session that is paid at Stripe. -/
def openSession : SplitBilling := shop SubscriptionDb.sample.plans

def sampleLimits : ManagedPlanId → QuotaLimits := fun p => (managedCatalog PlanConfigRow.samples p).quota

private theorem atBase_samples : AtBase sampleLimits PlanConfigRow.samples := by
  intro p row hrow
  simp [sampleLimits, managedCatalog, hrow, PlanConfigRow.config]

theorem seeded_openSession : Seeded .sample sampleLimits openSession := by
  constructor
  · intro data rows hload
    cases hload
  · exact atBase_samples
  · exact atBase_samples
  · intro catalog hcatalog p
    obtain rfl := Option.some.inj hcatalog
    rfl

private def studentQuota : UserQuota := ⟨"u", some (.managed .student), ⟨2, 2, 4096, 40⟩⟩

private def studentLog : List (Event splitInterface) :=
  [⟨.receive "u" (.managed .student), ()⟩,
    ⟨.user (.findUser "u"), .ok (some (⟨"u", .user, true⟩, none))⟩,
    ⟨.user .findPlans, .ok PlanConfigRow.samples⟩]

private def Asked (plans : PlanTable) (x : SplitStage) : Prop :=
  x.state.user = SubscriptionDb.sample ∧ x.state.pay.planCatalog = some (managedCatalog plans.rows) ∧
  ∃ k, x.tasks[2]? = some ⟨.user (.activate "u" (.managed .student)), studentLog,
    .call (.user (.upsertQuota "u" (.managed .student) ⟨2, 2, 4096, 40⟩)) k⟩

private theorem asked_run (plans : PlanTable) (first : SplitTask) :
    Reaches (fun x l y => (splitServer .sample).Step x l y ∧ NoLimitEdited x l)
      ⟨shop plans, [first]⟩ (Asked plans) := by
  apply Reaches.next ⟨.begin (.payment (.confirm "u" "cs_test_a1")), by rintro _ _ _ ⟨⟩⟩
  apply Reaches.next ⟨.act (I := splitInterface) (i := 1)
    (c := SplitCall.payment (.retrieveSession "cs_test_a1")) (r := .ok (some ⟨some "u", "paid"⟩)) rfl
    ⟨_, .inl ⟨⟨_, rfl⟩, rfl⟩, rfl⟩, by rintro _ _ _ ⟨⟩⟩
  apply Reaches.next ⟨.act (I := splitInterface) (i := 1)
    (c := SplitCall.payment (.findStripePayments "cs_test_a1")) (r := .ok [studentPayment]) rfl
    ⟨_, .inl ⟨⟨_, .refl _, rfl⟩, rfl⟩, rfl⟩, by rintro _ _ _ ⟨⟩⟩
  apply Reaches.next ⟨.act (I := splitInterface) (i := 1)
    (c := SplitCall.payment (.markPaid ["p1"])) (r := .ok ()) rfl
    ⟨_, .inl ⟨rfl, rfl⟩, rfl⟩, by rintro _ _ _ ⟨⟩⟩
  apply Reaches.next ⟨.act (I := splitInterface) (i := 1)
    (c := SplitCall.payment (.activate "p1" "u" (.managed .student))) (r := .ok ()) rfl
    (.inr rfl), by rintro _ _ _ ⟨⟩⟩
  apply Reaches.next ⟨.begin (.user (.activate "u" (.managed .student))), by rintro _ _ _ ⟨⟩⟩
  apply Reaches.next ⟨.act (I := splitInterface) (i := 2)
    (c := SplitCall.receive "u" (.managed .student)) (r := ()) rfl
    ⟨List.mem_append_right _ (by decide), rfl⟩, by rintro _ _ _ ⟨⟩⟩
  apply Reaches.next ⟨.act (I := splitInterface) (i := 2)
    (c := SplitCall.user (.findUser "u")) (r := .ok (some (⟨"u", .user, true⟩, none))) rfl
    ⟨_, .inl ⟨rfl, rfl⟩, rfl⟩, by rintro _ _ _ ⟨⟩⟩
  apply Reaches.next ⟨.act (I := splitInterface) (i := 2)
    (c := SplitCall.user .findPlans) (r := .ok PlanConfigRow.samples) rfl
    ⟨_, .inl ⟨_, .refl _, PlanConfigRow.samples_sorted, rfl, rfl⟩, rfl⟩, by rintro _ _ _ ⟨⟩⟩
  apply Reaches.here
  exact ⟨rfl, rfl, _, rfl⟩

private theorem write_step {plans : PlanTable} {x : SplitStage} (hx : Asked plans x) :
    ∃ y l, (splitServer .sample).Step x l y ∧
      Activates .sample x l y "u" (.managed .student) ⟨"u", .user, true⟩ studentQuota := by
  obtain ⟨⟨pay, db, sent⟩, tasks⟩ := x
  obtain ⟨huser, -, k, htask⟩ := hx
  obtain rfl : db = SubscriptionDb.sample := huser
  have hserve : mayServe (.upsertQuota "u" (.managed .student) ⟨2, 2, 4096, 40⟩) SubscriptionDb.sample
      (.ok studentQuota) (SubscriptionDb.sample.putQuota studentQuota (by decide)) :=
    .inl (.inl ⟨by decide, rfl, rfl⟩)
  exact ⟨_, _, .act (I := splitInterface) htask ⟨_, hserve, rfl⟩,
    ⟨2, .managed .student, .ok studentQuota, _, rfl, htask, rfl, rfl, rfl⟩, rfl⟩

private theorem paid_run :
    Reaches (fun x l y => (splitServer .sample).Step x l y ∧ NoLimitEdited x l) ⟨openSession, []⟩
      (Asked SubscriptionDb.sample.plans) := by
  apply Reaches.next ⟨.begin .publicPlans, by rintro _ _ _ ⟨⟩⟩
  exact asked_run SubscriptionDb.sample.plans _

/-- The plans are shown and one of them is paid: with no edit on the way it is granted so. -/
theorem sold_is_granted_student : ∃ trace x l y row limits,
    Run (splitServer .sample).Step ⟨openSession, []⟩ trace x ∧ (splitServer .sample).Step x l y ∧
    Activates .sample x l y "u" (.managed .student) ⟨"u", .user, true⟩ row ∧
    Shows .sample x.state .student limits ∧ row.limits = limits := by
  obtain ⟨trace, x, hrun, hl, hx⟩ := paid_run.along
  obtain ⟨y, l, hstep, ha⟩ := write_step hx
  have hshows := shows_memory .sample hx.2.1 .student
  have hgranted := (sold_is_granted hrun hstep ha).2 sampleLimits seeded_openSession hl (by decide)
    _ hshows
  exact ⟨trace, x, l, y, studentQuota, _, hrun, hstep, ha, hshows, hgranted⟩

private def raisedStudent : PlanConfigRow := ⟨.student, 29, 1, 60, ⟨3, 2, 4096, 40⟩⟩

private def raisedPlans : PlanTable := SubscriptionDb.sample.plans.upsert raisedStudent

private theorem edited_run : Reaches (splitServer .sample).Step ⟨openSession, []⟩
    fun x => ∃ first, x = ⟨shop raisedPlans, [first]⟩ := by
  apply Reaches.next (.begin (.updatePlan (some .admin) "student" { maxVms := some 3 }))
  apply Reaches.next (.act (I := splitInterface) (i := 0) (c := SplitCall.own (.findPlan .student))
    (r := .ok (some ⟨.student, 29, 1, 60, ⟨2, 2, 4096, 40⟩⟩)) rfl ⟨_, .inl ⟨rfl, rfl⟩, rfl⟩)
  apply Reaches.next (.act (I := splitInterface) (i := 0)
    (c := SplitCall.own (.updatePlan .student { maxVms := some 3 })) (r := .ok raisedStudent) rfl
    ⟨_, .inl (by exact ⟨rfl, rfl⟩), rfl⟩)
  apply Reaches.next (.act (I := splitInterface) (i := 0) (c := SplitCall.own .findPlans)
    (r := .ok raisedPlans.rows) rfl
    ⟨_, .inl ⟨raisedPlans.rows, .refl _, by decide, rfl, rfl⟩, rfl⟩)
  apply Reaches.next (.act (I := splitInterface) (i := 0)
    (c := SplitCall.setPlanCatalog (managedCatalog raisedPlans.rows)) (r := ()) rfl rfl)
  apply Reaches.here
  exact ⟨_, rfl⟩

/-- A student plan that is raised to three VMs is sold as three and granted as two. -/
theorem edited_plan_is_granted_unedited :
    ¬ ∀ (env : PaymentEnv) (base : ManagedPlanId → QuotaLimits) (s : SplitBilling)
      (trace : List (SplitLabel × SplitStage)) (x y : SplitStage) (l : SplitLabel) (userId : String)
      (p : ManagedPlanId) (a : Account) (row : UserQuota), Seeded env base s →
      Run (splitServer env).Step ⟨s, []⟩ trace x → (splitServer env).Step x l y →
      Activates env x l y userId (.managed p) a row → a.role ≠ .admin →
      ∀ limits, Shows env x.state p limits → row.limits = limits := by
  intro h
  obtain ⟨trace, t, hrun, first, rfl⟩ := edited_run
  obtain ⟨trace', x, hrun', -, hx⟩ := (asked_run raisedPlans first).along
  obtain ⟨y, l, hstep, ha⟩ := write_step hx
  have hgranted := h _ _ _ _ _ _ _ _ _ _ _ seeded_openSession (hrun.append hrun') hstep ha
    (by decide) _ (shows_memory _ hx.2.1 .student)
  exact absurd hgranted (by decide)

end Sample

end CloudVM.Catalogs
