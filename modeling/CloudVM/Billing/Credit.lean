import CloudVM.Billing.Funded
import CloudVM.Billing.Sale

/-!
# What an upgrade is credited for

An upgrade is charged the difference of two prices of today's catalog. The plan it starts from is
the one that the user service infers from the quota row. Where every quota row of a plan comes
from a paid session and the catalog stays as it is, what is taken off was paid before.
-/

namespace CloudVM

open Process PaymentService

namespace Credit

section Runs

variable {cfg : ManagedCatalog} {env : PaymentEnv} {s s' : PaymentStore} {x y : PaymentStage}
  {l : PaymentLabel}

abbrev saleOf (env : PaymentEnv) (task : PaymentTask) : Sale := (sales env).phase task

/-- Apart from the activations nothing grants a plan or edits the catalog, and no payment goes. -/
def NoGift (x : PaymentStage) (l : PaymentLabel) (y : PaymentStage) : Prop :=
  l = .change → y.state.payments = x.state.payments ∧ y.state.subs.plans = x.state.subs.plans ∧
    ∀ q ∈ y.state.subs.quotas.rows,
      q ∈ x.state.subs.quotas.rows ∨ q.limits = unlimitedPlanConfig.quota

/-- What a request has read is the catalog `cfg`, a plan that was paid for, and payments that are
still there. -/
structure Grounds (cfg : ManagedCatalog) (s : PaymentStore) (q : PaymentRequest) (φ : Sale) :
    Prop where
  catalog : ∀ catalog, φ.catalog = some catalog → catalog = cfg
  active : ∀ userId role planId p, q = .checkout userId role planId →
    φ.active = some (some (.managed p)) → (cfg p).monthlyPriceDt ≤ paidSum s userId
  found : ∀ row ∈ φ.found, ∃ r ∈ s.payments.rows, row.Same r
  marked : ∀ row ∈ φ.found, row.id ∈ φ.marked →
    ∃ r ∈ s.payments.rows, row.Same r ∧ r.status.settled = true

theorem Grounds.grows {q : PaymentRequest} {φ : Sale} (h : Grounds cfg s q φ) (hs : Grows s s') :
    Grounds cfg s' q φ where
  catalog := h.catalog
  active userId role planId p hq hp := (h.active userId role planId p hq hp).trans (hs.paid userId)
  found row hrow := by
    obtain ⟨r, hr, hsame⟩ := h.found row hrow
    obtain ⟨r', hr', hsame'⟩ := hs.rows r hr
    exact ⟨r', hr', hsame.trans hsame'⟩
  marked row hrow hid := by
    obtain ⟨r, hr, hsame, hsettled⟩ := h.marked row hrow hid
    obtain ⟨r', hr', hsame'⟩ := hs.rows r hr
    exact ⟨r', hr', hsame.trans hsame', hsame'.settled hsettled⟩

structure Solvent (cfg : ManagedCatalog) (env : PaymentEnv) (x : PaymentStage) : Prop where
  funded : Funded cfg env.lower x.state
  grounds : ∀ task ∈ x.tasks, Grounds cfg x.state task.request (saleOf env task)

theorem Solvent.paysFor (hcfg : Fair cfg) (hx : Solvent cfg env x) {task : PaymentTask}
    (hm : task ∈ x.tasks) {c : PaymentCall}
    (hc : Sale.Permits env task.request (saleOf env task) c) : PaysFor cfg x.state c := by
  have hground := hx.grounds task hm
  cases c with
  | createPayment d =>
    obtain ⟨role, catalog, active, hq, hcatalog, hactive, hstatus, hamount⟩ := hc
    obtain rfl := hground.catalog catalog hcatalog
    obtain ⟨hnonneg, hle⟩ := hcfg.price_le d.planId (upgradeFrom d.planId active catalog)
    rw [← hamount] at hnonneg hle
    refine ⟨hstatus, hnonneg, hle.trans ?_⟩
    apply add_le_add _ le_rfl
    cases hup : upgradeFrom d.planId active catalog with
    | none =>
      apply List.sum_nonneg
      intro amount hmem
      obtain ⟨row, hrow, rfl⟩ := List.mem_map.mp hmem
      unfold paidAmount
      split
      · exact hx.funded.amounts row hrow
      · exact le_rfl
    | some current =>
      have hcurrent : active = some (.managed current) := by
        unfold upgradeFrom at hup
        split at hup
        · split at hup
          · rw [Option.some.inj hup]
          · cases hup
        · cases hup
      rw [hcurrent] at hactive
      exact hground.active _ _ _ current hq hactive
  | activate id userId planId =>
    obtain ⟨row, hrow, hid, -, rfl, hplan⟩ := hc
    rintro p rfl
    obtain ⟨r, hr, hsame, hsettled⟩ := hground.marked row hrow hid
    rw [hsame.plan] at hplan
    have hprice := hx.funded.payments r hr p hplan
    have hpaid : r.status = .paid := by
      have hgranted := hx.funded.granted r hr
      cases hstatus : r.status with
      | paid => rfl
      | adminGranted => exact absurd hstatus hgranted
      | pending | expired => simp [hstatus, PaymentStatus.settled] at hsettled
    rw [owed, if_pos hpaid, add_zero, ← hsame.userId] at hprice
    exact hprice
  | _ => trivial

private theorem inferred_paid (hs : Funded cfg env.lower s) {userId : String} {a : Account}
    {quota : Option UserQuota} (hlookup : s.subs.lookup userId = some (a, quota)) {p : ManagedPlanId}
    (h : UserService.resolvePlanForUser a.role (quota.map UserQuota.limits) cfg =
      some (.managed p)) : (cfg p).monthlyPriceDt ≤ paidSum s userId := by
  unfold SubscriptionDb.lookup at hlookup
  obtain ⟨a', -, ha'⟩ := Option.map_eq_some_iff.mp hlookup
  obtain ⟨rfl, hquota⟩ := Prod.mk.inj ha'
  unfold UserService.resolvePlanForUser at h
  split at h
  · cases h
  · cases quota with
    | none => cases h
    | some q =>
      obtain ⟨hq, rfl⟩ := (Table.find?_eq_some _).mp hquota
      exact hs.quotas q hq p h

private theorem grounds_act (hx : Solvent cfg env x) {task : PaymentTask} (hm : task ∈ x.tasks)
    {c : PaymentCall} {r : c.Answer} (hc : Sale.Permits env task.request (saleOf env task) c)
    (hgrows : Grows x.state s') (he : c.mayServe env.json x.state r s') :
    Grounds cfg s' task.request ((saleOf env task).advance c r) := by
  have hold := (hx.grounds task hm).grows hgrows
  cases c with
  | getPlanCatalog =>
    cases r with
    | error e => exact hold
    | ok catalog =>
      refine { hold with catalog := ?_ }
      intro catalog' hcatalog
      obtain rfl := Option.some.inj hcatalog
      rcases he with he | ⟨⟨e, he, -⟩, -⟩
      · simp only [PaymentCall.serve] at he
        split at he
        · rename_i memory hmemory
          cases he.1
          exact hx.funded.memory _ hmemory
        · obtain ⟨out, t, ht, rfl, -⟩ := he
          exact (remote_catalog hx.funded ht).2.2.2 _ rfl
      · cases he
  | subscriptionAccess userId =>
    cases r with
    | error e => exact hold
    | ok access =>
      refine { hold with active := ?_ }
      intro userId' role' planId' p hq' hactive
      obtain ⟨role, planId, hq⟩ := hc
      rw [hq] at hq'
      cases hq'
      have hplan : access.activePlanId = some (.managed p) := Option.some.inj hactive
      rcases he with he | ⟨⟨e, he, -⟩, -⟩
      · obtain ⟨out, ht, hout⟩ := he
        obtain ⟨hsubs, -, -, hcatalog⟩ := remote_catalog hx.funded ht
        cases out with
        | error e =>
          obtain ⟨e', he'⟩ := hout
          cases he'
        | ok catalog =>
          obtain rfl := hcatalog catalog rfl
          cases hlookup : x.state.subs.lookup userId with
          | none =>
            rw [hlookup] at hout
            obtain ⟨e', he'⟩ := hout
            cases he'
          | some found =>
            obtain ⟨a, quota⟩ := found
            rw [hlookup] at hout
            obtain ⟨access', haccess, hresolve⟩ := hout
            cases haccess
            rw [hplan] at hresolve
            exact (inferred_paid hx.funded hlookup hresolve.symm).trans (hgrows.paid userId)
      · cases he
  | findStripePayments sessionId =>
    cases r with
    | error e => exact hold
    | ok rows =>
      obtain ⟨-, hperm⟩ := found_of_mayServe he
      refine { hold with found := ?_, marked := ?_ }
      · intro row hrow
        have hmem := List.mem_filter.mp (hperm.mem_iff.mp hrow)
        exact hgrows.rows row hmem.1
      · intro row _ hid
        cases hid
  | markPaid ids =>
    cases r with
    | error e => exact hold
    | ok u =>
      refine { hold with marked := ?_ }
      intro row hrow hid
      obtain ⟨r, hr, hsame⟩ := hold.found row hrow
      refine ⟨r, hr, hsame, ?_⟩
      apply settled_of_markPaid he hr
      rw [← hsame.id]
      exact hid
  | _ => cases r <;> exact hold

private theorem solvent_act (hcfg : Fair cfg) (hk : (sales env).Kept x) (hx : Solvent cfg env x)
    {i : ℕ} {c : PaymentCall} {r : c.Answer} (h : (paymentServer env).Step x (.act i c r) y) :
    Solvent cfg env y := by
  obtain ⟨task, task', hi, -, htasks, hrequest, hpermits, hphase, heffect⟩ := hk.act h
  have hm : task ∈ x.tasks := List.mem_of_getElem? hi
  have hphase' : saleOf env task' = (saleOf env task).advance c r := hphase
  obtain ⟨hfunded, hgrows⟩ :=
    funded_of_mayServe hcfg hx.funded (hx.paysFor hcfg hm hpermits) heffect
  refine ⟨hfunded, ?_⟩
  intro b hb
  rw [htasks] at hb
  rcases mem_set_cases hb with rfl | ⟨j, -, hj⟩
  · rw [hrequest, hphase']
    exact grounds_act hx hm hpermits hgrows heffect
  · exact (hx.grounds b (List.mem_of_getElem? hj)).grows hgrows

private theorem solvent_change (hx : Solvent cfg env x)
    (h : (paymentServer env).Step x .change y) (hgift : NoGift x .change y) :
    Solvent cfg env y := by
  obtain ⟨hpayments, hplans, hquotas⟩ := hgift rfl
  have hgrows : Grows x.state y.state := grows_of_payments hpayments
  have hfunded : Funded cfg env.lower y.state := by
    apply hx.funded.of_quotas hpayments hplans
    · cases h with
      | @change s₀ s₁ tasks hc =>
        obtain ⟨q, out, t, ⟨subs, -, rfl⟩, hs⟩ := hc
        intro catalog hcatalog
        rcases hs with rfl | rfl | rfl
        · exact hx.funded.memory catalog hcatalog
        · cases hcatalog
        · obtain rfl := Option.some.inj hcatalog
          have hcurrent := hx.funded.catalog.2
          have hsame : subs.plans = s₀.subs.plans := hplans
          change managedCatalog subs.plans.rows = cfg
          rw [hsame]
          exact hcurrent
    · intro q hq
      rcases hquotas q hq with hold | hnew
      · exact .inl hold
      · right
        intro p hp
        rw [hnew] at hp
        simp [UserService.resolvePlanFromQuota] at hp
  refine ⟨hfunded, ?_⟩
  cases h with
  | change hc => exact fun task hm => (hx.grounds task hm).grows hgrows

theorem solvent_step (hcfg : Fair cfg) (hk : (sales env).Kept x) (hx : Solvent cfg env x)
    (h : (paymentServer env).Step x l y) (hgift : NoGift x l y) : Solvent cfg env y := by
  cases l with
  | act i c r => exact solvent_act hcfg hk hx h
  | begin q =>
    cases h
    refine ⟨hx.funded, ?_⟩
    intro b hb
    rcases List.mem_append.mp hb with hb | hb
    · exact hx.grounds b hb
    · obtain rfl := List.mem_singleton.mp hb
      constructor
      · rintro catalog ⟨⟩
      · rintro userId role planId p hq ⟨⟩
      · rintro row ⟨⟩
      · rintro row ⟨⟩
  | crash =>
    cases h with
    | @crash s tasks i task e hi hl =>
      refine ⟨hx.funded, ?_⟩
      intro b hb
      rcases mem_set_cases hb with rfl | ⟨j, -, hj⟩
      · exact hx.grounds task (List.mem_of_getElem? hi)
      · exact hx.grounds b (List.mem_of_getElem? hj)
  | change => exact solvent_change hx h hgift

/-- A checkout of the user charges `credit` less than the plan costs in the catalog it has read. -/
structure Credits (env : PaymentEnv) (x : PaymentStage) (l : PaymentLabel) (userId : String)
    (credit : Rat) : Prop where
  charged : ∃ i d r task catalog, l = .act i (PaymentCall.createPayment d) r ∧
    x.tasks[i]? = some task ∧ d.userId = userId ∧ (saleOf env task).catalog = some catalog ∧
    credit = (catalog d.planId).monthlyPriceDt - d.amount

end Runs

section Sample

private theorem fair_sample : Fair sampleCatalog where
  whole p := by
    cases p with
    | student => exact ⟨2900, by decide, by decide +kernel⟩
    | pro => exact ⟨7900, by decide, by decide +kernel⟩
    | enterprise => exact ⟨19900, by decide, by decide +kernel⟩
  recognised p q := by
    cases p <;> cases q <;> decide +kernel

private def studentPaid : PaymentRow :=
  { id := "p1", userId := "u", planId := some "student", amount := 29, status := .paid
    method := some "stripe:cs_test_a1:plan:student:usd:9.28" }

/-- The user `u` has bought the student plan. -/
def studentStore : PaymentStore where
  subs :=
    { users := SubscriptionDb.sample.users
      quotas := ⟨[⟨"u", some (.managed .student), ⟨2, 2, 4096, 40⟩⟩], by decide⟩
      owner := by decide
      plans := SubscriptionDb.sample.plans }
  payments := ⟨[studentPaid], by decide⟩
  owner := by decide
  events := .empty
  planCatalog := some sampleCatalog

private theorem funded_studentStore :
    Funded sampleCatalog PaymentEnv.sample.lower studentStore where
  plans p := by cases p <;> exact ⟨_, rfl, rfl⟩
  memory catalog h := (Option.some.inj h).symm
  amounts := by decide +kernel
  granted := by decide
  payments row hrow p hp := by
    obtain rfl := List.mem_singleton.mp hrow
    cases p <;> revert hp <;> decide +kernel
  quotas q hq p hp := by
    obtain rfl := List.mem_singleton.mp hq
    cases p <;> revert hp <;> decide +kernel

/-- The user service tells the plan that it infers and changes nothing. -/
theorem access_serves {s : PaymentStore} {json : PlanCatalogJson} (hs : s.subs.Complete)
    {userId : String} {a : Account} {quota : Option UserQuota}
    (hlookup : s.subs.lookup userId = some (a, quota)) {access : SubscriptionAccess}
    (haccess : access.activePlanId =
      UserService.resolvePlanForUser a.role (quota.map UserQuota.limits) s.subs.currentCatalog) :
    (PaymentCall.subscriptionAccess userId).serve json s (.ok access) s := by
  have hsame : s = s.withSubs s.subs := s.withSubs_self.symm
  refine ⟨.ok s.subs.currentCatalog, ⟨s.subs, getPlanCatalog_ends hs, hsame⟩, ?_⟩
  rw [hlookup]
  exact ⟨access, rfl, haccess⟩

/-- A checkout of the user is about to make a payment that charges `credit` less than the price. -/
private def Charging (userId : String) (credit : Rat) (x : PaymentStage) : Prop :=
  ∃ (i : ℕ) (task : PaymentTask) (d : PaymentData), x.tasks[i]? = some task ∧
    (∃ k, task.rest = .call (PaymentCall.createPayment d) k) ∧ d.userId = userId ∧
    (saleOf .sample task).catalog = some sampleCatalog ∧
    credit = (sampleCatalog d.planId).monthlyPriceDt - d.amount

private theorem charging_step {userId : String} {credit : Rat} {x : PaymentStage}
    (hx : Charging userId credit x) (howner : ∃ a ∈ x.state.subs.users.rows, a.id = userId)
    (hid : "p2" ∉ x.state.payments.rows.map PaymentRow.id) :
    ∃ y l, (paymentServer .sample).Step x l y ∧ Credits .sample x l userId credit := by
  obtain ⟨s, tasks⟩ := x
  obtain ⟨i, ⟨q, log, rest⟩, d, hi, ⟨k, rfl⟩, rfl, hcatalog, rfl⟩ := hx
  have hserve : (PaymentCall.createPayment d).mayServe PaymentEnv.sample.json s (.ok ())
      (s.insertPayment (d.toRow "p2") hid howner) := .inl (.inl ⟨"p2", hid, howner, rfl, rfl⟩)
  exact ⟨_, _, .act (I := paymentInterface) hi hserve,
    ⟨i, d, .ok (), _, sampleCatalog, rfl, hi, rfl, hcatalog, rfl⟩⟩

private theorem upgrade_run :
    Reaches (fun x l y => (paymentServer .sample).Step x l y ∧ NoGift x l y) ⟨studentStore, []⟩
      fun x => x.state = studentStore ∧ Charging "u" 29 x := by
  have hcomplete : studentStore.subs.Complete := by
    intro p
    cases p <;> rfl
  apply Reaches.next ⟨.begin (.checkout "u" .user .pro), by rintro ⟨⟩⟩
  apply Reaches.next ⟨.act (I := paymentInterface) (i := 0) (c := PaymentCall.getPlanCatalog)
    (r := .ok sampleCatalog) rfl (.inl ⟨rfl, rfl⟩), by rintro ⟨⟩⟩
  apply Reaches.next ⟨.act (I := paymentInterface) (i := 0)
    (c := PaymentCall.subscriptionAccess "u") (r := .ok ⟨some (.managed .student), false, 0, none⟩) rfl
    (.inl (access_serves hcomplete rfl rfl)), by rintro ⟨⟩⟩
  apply Reaches.next ⟨.act (I := paymentInterface) (i := 0)
    (c := PaymentCall.subscriptionAccess "u") (r := .ok ⟨some (.managed .student), false, 0, none⟩) rfl
    (.inl (access_serves hcomplete rfl rfl)), by rintro ⟨⟩⟩
  apply Reaches.next ⟨.act (I := paymentInterface) (i := 0)
    (c := PaymentCall.createSession _) (r := .ok ⟨"cs_test_b1", none⟩) rfl
    (.inl ⟨⟨_, rfl⟩, rfl⟩), by rintro ⟨⟩⟩
  apply Reaches.here
  exact ⟨rfl, 0, _, _, rfl, ⟨_, rfl⟩, rfl, rfl, by decide +kernel⟩

private theorem funded_fresh : Funded sampleCatalog PaymentEnv.sample.lower PaymentStore.fresh where
  plans p := by cases p <;> exact ⟨_, rfl, rfl⟩
  memory catalog h := (Option.some.inj h).symm
  amounts := by simp [PaymentStore.fresh]
  granted := by simp [PaymentStore.fresh]
  payments := by simp [PaymentStore.fresh]
  quotas := by simp [PaymentStore.fresh, SubscriptionDb.sample]

/-- The tables once an admin has given the user `u` the pro plan. -/
private def grantedStore : PaymentStore :=
  PaymentStore.fresh.withSubs
    (PaymentStore.fresh.subs.putQuota ⟨"u", some (.managed .pro), ⟨6, 8, 16384, 120⟩⟩ (by decide))

private theorem granted_run : Reaches (paymentServer .sample).Step ⟨PaymentStore.fresh, []⟩ fun x =>
    x.state = grantedStore ∧ Charging "u" 79 x := by
  have hfresh : PaymentStore.fresh.subs.Complete := by
    intro p
    cases p <;> rfl
  have hcomplete : grantedStore.subs.Complete := by
    intro p
    cases p <;> rfl
  have hgrant : (UserService.setUserSubscription .unset "u" (.managed .pro) (some .admin)
      (some "a")).Ends SubscriptionCall.mayServe PaymentStore.fresh.subs _ grantedStore.subs :=
    Ends.bind ⟨rfl, rfl⟩ (Ends.bind (existingUser_ends (a := ⟨"u", .user, true⟩) rfl)
      (Ends.bind (upsertQuota_ends hfresh "u" (.managed .pro) (by decide)) ⟨rfl, rfl⟩))
  apply Reaches.next (.change ⟨.setSubscription "u" (.managed .pro) (some .admin) (some "a"), _,
    grantedStore, ⟨_, hgrant, rfl⟩, .inl rfl⟩)
  apply Reaches.next (.begin (.checkout "u" .user .enterprise))
  apply Reaches.next (.act (I := paymentInterface) (i := 0) (c := PaymentCall.getPlanCatalog)
    (r := .ok sampleCatalog) rfl (.inl ⟨rfl, rfl⟩))
  apply Reaches.next (.act (I := paymentInterface) (i := 0)
    (c := PaymentCall.subscriptionAccess "u") (r := .ok ⟨some (.managed .pro), false, 0, none⟩) rfl
    (.inl (access_serves hcomplete rfl rfl)))
  apply Reaches.next (.act (I := paymentInterface) (i := 0)
    (c := PaymentCall.subscriptionAccess "u") (r := .ok ⟨some (.managed .pro), false, 0, none⟩) rfl
    (.inl (access_serves hcomplete rfl rfl)))
  apply Reaches.next (.act (I := paymentInterface) (i := 0)
    (c := PaymentCall.createSession _) (r := .ok ⟨"cs_test_b1", none⟩) rfl
    (.inl ⟨⟨_, rfl⟩, rfl⟩))
  apply Reaches.here
  exact ⟨rfl, 0, _, _, rfl, ⟨_, rfl⟩, rfl, rfl, by decide +kernel⟩

end Sample

end Credit

end CloudVM
