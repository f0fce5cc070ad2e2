import CloudVM.Billing.Activation
import CloudVM.Billing.Server
import Mathlib.Tactic.Linarith
import Mathlib.Tactic.Positivity
import Mathlib.Tactic.Ring

/-!
# What users have paid

The sum of a user's paid payments only grows. A plan is funded when its price in the catalog is
within that sum, or comes to be so with the payment that is still owed. The calls of the payment
service keep all plans funded that were.
-/

namespace CloudVM

open Process PaymentService

namespace Credit

section Sums

def paidAmount (userId : String) (row : PaymentRow) : Rat :=
  if row.userId = userId ∧ row.status = .paid then row.amount else 0

/-- What a user has paid: the sum of the amounts of the paid payments. -/
def paidSum (s : PaymentStore) (userId : String) : Rat :=
  (s.payments.rows.map (paidAmount userId)).sum

/-- Payments stay, what was paid stays paid. -/
structure Grows (s s' : PaymentStore) : Prop where
  rows : ∀ row ∈ s.payments.rows, ∃ row' ∈ s'.payments.rows, row.Same row'
  paid : ∀ userId, paidSum s userId ≤ paidSum s' userId

variable {s s' : PaymentStore}

theorem Grows.refl (s : PaymentStore) : Grows s s where
  rows row hrow := ⟨row, hrow, .refl row⟩
  paid _ := le_rfl

theorem grows_of_payments (h : s'.payments = s.payments) : Grows s s' where
  rows row hrow := ⟨row, by rw [h]; exact hrow, .refl row⟩
  paid userId := by rw [paidSum, paidSum, h]

theorem paidSum_of_payments (h : s'.payments = s.payments) (userId : String) :
    paidSum s' userId = paidSum s userId := by
  rw [paidSum, paidSum, h]

private theorem paidSum_setStatus (s : PaymentStore) (p : PaymentRow → Bool) (status : PaymentStatus)
    (userId : String) : paidSum (s.setStatus p status) userId =
      (s.payments.rows.map fun row =>
        paidAmount userId (if p row then { row with status } else row)).sum := by
  simp only [paidSum, PaymentStore.setStatus, Table.rows_modify, List.map_map]
  rfl

private theorem paidAmount_le {row : PaymentRow} (hamount : 0 ≤ row.amount)
    {status : PaymentStatus} (h : row.status = .paid → status = .paid) (userId : String) :
    paidAmount userId row ≤ paidAmount userId { row with status } := by
  unfold paidAmount
  by_cases hrow : row.userId = userId ∧ row.status = .paid
  · simp [hrow.1, hrow.2, h hrow.2]
  · rw [if_neg hrow]
    split
    · exact hamount
    · exact le_rfl

private theorem paidSum_le_setStatus {p : PaymentRow → Bool} {status : PaymentStatus}
    (hamount : ∀ row ∈ s.payments.rows, 0 ≤ row.amount)
    (h : ∀ row, p row = true → row.status = .paid → status = .paid) (userId : String) :
    paidSum s userId ≤ paidSum (s.setStatus p status) userId := by
  rw [paidSum_setStatus]
  apply List.sum_le_sum
  intro row hrow
  split
  · rename_i hp
    exact paidAmount_le (hamount row hrow) (h row hp) userId
  · exact le_rfl

private theorem paidSum_add_le_setStatus {p : PaymentRow → Bool}
    (hamount : ∀ row ∈ s.payments.rows, 0 ≤ row.amount) {row : PaymentRow}
    (hrow : row ∈ s.payments.rows) (hp : p row = true) (hstatus : row.status ≠ .paid) :
    paidSum s row.userId + row.amount ≤ paidSum (s.setStatus p .paid) row.userId := by
  rw [paidSum_setStatus]
  apply sum_add_le
  · intro r hr
    split
    · exact paidAmount_le (hamount r hr) (fun _ => rfl) row.userId
    · exact le_rfl
  · refine ⟨row, hrow, ?_⟩
    simp [paidAmount, hp, hstatus]

private theorem paidSum_insert {row : PaymentRow} (hid : row.id ∉ s.payments.rows.map PaymentRow.id)
    (howner : ∃ a ∈ s.subs.users.rows, a.id = row.userId) (hstatus : row.status = .pending)
    (userId : String) : paidSum (s.insertPayment row hid howner) userId = paidSum s userId := by
  simp [paidSum, PaymentStore.insertPayment, paidAmount, hstatus]

end Sums

section Prices

/-- The catalog has prices in whole hundredths, and the limits of a plan are taken for those of no
dearer one. -/
structure Fair (cfg : ManagedCatalog) : Prop where
  whole : ∀ p, ∃ n : Int, 0 ≤ n ∧ (cfg p).monthlyPriceDt = n / 100
  recognised : ∀ p q, UserService.resolvePlanFromQuota (some (cfg p).quota) cfg = some (.managed q) →
    (cfg q).monthlyPriceDt ≤ (cfg p).monthlyPriceDt

variable {cfg : ManagedCatalog}

theorem Fair.price_nonneg (hcfg : Fair cfg) (p : ManagedPlanId) : 0 ≤ (cfg p).monthlyPriceDt := by
  obtain ⟨n, hn, hprice⟩ := hcfg.whole p
  rw [hprice]
  positivity

theorem Fair.price_le (hcfg : Fair cfg) (planId : ManagedPlanId) (upgrade : Option ManagedPlanId) :
    0 ≤ chargeDt planId upgrade cfg ∧
      (cfg planId).monthlyPriceDt ≤
        ((upgrade.map fun p => (cfg p).monthlyPriceDt).getD 0) + chargeDt planId upgrade cfg := by
  cases upgrade with
  | none =>
    refine ⟨hcfg.price_nonneg planId, ?_⟩
    simp [chargeDt, chargeDtWith]
  | some current =>
    obtain ⟨n, -, hn⟩ := hcfg.whole planId
    obtain ⟨m, -, hm⟩ := hcfg.whole current
    have hdiff : (n : Rat) / 100 - m / 100 = ((n - m : Int) : Rat) / 100 := by
      push_cast
      ring
    refine ⟨le_max_left _ _, ?_⟩
    have hmax := le_max_right 0 (toFixed2 ((cfg planId).monthlyPriceDt - (cfg current).monthlyPriceDt))
    rw [hn, hm, hdiff, toFixed2_whole, ← hdiff] at hmax
    simp only [chargeDt, chargeDtWith, id_eq, Option.map_some, Option.getD_some, hn, hm]
    rw [hdiff, toFixed2_whole, ← hdiff]
    linarith

end Prices

section Funded

def owed (row : PaymentRow) : Rat := if row.status = .paid then 0 else row.amount

/-- The catalog is `cfg`, and the plan of each quota row and of each payment is paid for by its
user, or will be when the payment is. -/
structure Funded (cfg : ManagedCatalog) (lower : String → String) (s : PaymentStore) : Prop where
  plans : ∀ p, ∃ row, s.subs.plans.find? p = some row ∧ row.config = cfg p
  memory : ∀ catalog, s.planCatalog = some catalog → catalog = cfg
  amounts : ∀ row ∈ s.payments.rows, 0 ≤ row.amount
  granted : ∀ row ∈ s.payments.rows, row.status ≠ .adminGranted
  payments : ∀ row ∈ s.payments.rows, ∀ p, extractPlanFromPayment lower row = some (.managed p) →
    (cfg p).monthlyPriceDt ≤ paidSum s row.userId + owed row
  quotas : ∀ q ∈ s.subs.quotas.rows, ∀ p,
    UserService.resolvePlanFromQuota (some q.limits) cfg = some (.managed p) →
      (cfg p).monthlyPriceDt ≤ paidSum s q.userId

variable {cfg : ManagedCatalog} {lower : String → String} {s s' : PaymentStore}

theorem Funded.catalog (hs : Funded cfg lower s) : s.subs.Complete ∧ s.subs.currentCatalog = cfg := by
  constructor
  · intro p
    obtain ⟨row, hrow, -⟩ := hs.plans p
    rw [hrow]
    rfl
  · funext p
    obtain ⟨row, hrow, hcfg⟩ := hs.plans p
    have htable : planRow? s.subs.plans.rows p = some row := hrow
    simp [SubscriptionDb.currentCatalog, managedCatalog, htable, hcfg]

/-- The payments and the plans stay, and a new quota row is paid for. -/
theorem Funded.of_quotas (hs : Funded cfg lower s) (hpayments : s'.payments = s.payments)
    (hplans : s'.subs.plans = s.subs.plans)
    (hmemory : ∀ catalog, s'.planCatalog = some catalog → catalog = cfg)
    (hquotas : ∀ q ∈ s'.subs.quotas.rows, q ∈ s.subs.quotas.rows ∨ ∀ p,
      UserService.resolvePlanFromQuota (some q.limits) cfg = some (.managed p) →
        (cfg p).monthlyPriceDt ≤ paidSum s q.userId) : Funded cfg lower s' where
  plans := by
    rw [hplans]
    exact hs.plans
  memory := hmemory
  amounts := by
    rw [hpayments]
    exact hs.amounts
  granted := by
    rw [hpayments]
    exact hs.granted
  payments := by
    intro row hrow p hp
    rw [paidSum_of_payments hpayments]
    rw [hpayments] at hrow
    exact hs.payments row hrow p hp
  quotas := by
    intro q hq p hp
    rw [paidSum_of_payments hpayments]
    rcases hquotas q hq with hold | hnew
    · exact hs.quotas q hold p hp
    · exact hnew p hp

theorem remote_catalog {json : PlanCatalogJson} {out : Except Failure ManagedCatalog}
    (hs : Funded cfg lower s) (h : PaymentStore.Remote (UserService.getPlanCatalog json) s out s') :
    s'.subs = s.subs ∧ s'.payments = s.payments ∧ s'.planCatalog = s.planCatalog ∧
      ∀ catalog, out = .ok catalog → catalog = cfg := by
  obtain ⟨subs, hends, rfl⟩ := h
  have hread := (getPlanCatalog_reads hs.catalog.1).ends hends
  have hsubs : subs = s.subs := by
    cases out with
    | error e => exact hread
    | ok catalog => exact hread.1
  refine ⟨hsubs, s.withSubs_payments subs (by rw [hsubs]), rfl, ?_⟩
  rintro catalog rfl
  exact hread.2.trans hs.catalog.2

private theorem funded_activate (hcfg : Fair cfg) (hs : Funded cfg lower s) {json : PlanCatalogJson}
    {userId : String} {planId : SubscriptionPlanId} {out : Except Failure SubscriptionReply}
    (hpaid : ∀ p, planId = .managed p → (cfg p).monthlyPriceDt ≤ paidSum s userId)
    (h : PaymentStore.Remote
      (UserService.activateSubscriptionPlanFromInternal json userId planId) s out s') :
    Funded cfg lower s' ∧ s'.payments = s.payments := by
  obtain ⟨subs, hends, rfl⟩ := h
  obtain ⟨hcomplete, hcurrent⟩ := hs.catalog
  have hleaves := (activation_leaves hcomplete userId planId).ends hends
  have husers : subs.users = s.subs.users := by
    rcases hleaves with rfl | ⟨a, howner, -, rfl⟩
    · rfl
    · rfl
  have hplans : subs.plans = s.subs.plans := by
    rcases hleaves with rfl | ⟨a, howner, -, rfl⟩
    · rfl
    · rfl
  have hpayments := s.withSubs_payments subs husers
  refine ⟨hs.of_quotas hpayments hplans hs.memory ?_, hpayments⟩
  intro q hq
  rcases hleaves with rfl | ⟨a, howner, ha, rfl⟩
  · exact .inl hq
  · rcases s.subs.quotas.mem_upsert hq with rfl | ⟨hold, -⟩
    · right
      intro p hp
      obtain rfl : a.id = userId := ((Table.find?_eq_some _).mp ha).2
      simp only [dueQuota, hcurrent] at hp ⊢
      cases hfinal : UserService.finalPlan a.role planId with
      | unlimited =>
        rw [hfinal] at hp
        simp [UserService.resolvePlanFromQuota, catalogEntry] at hp
      | managed m =>
        rw [hfinal] at hp
        have hplan : planId = .managed m := by
          unfold UserService.finalPlan at hfinal
          split at hfinal
          · cases hfinal
          · exact hfinal
        exact (hcfg.recognised m p hp).trans (hpaid m hplan)
    · exact .inl hold

private theorem same_setStatus {p : PaymentRow → Bool} {status : PaymentStatus}
    (h : ∀ row, p row = true → row.status.settled = true → status.settled = true)
    (row : PaymentRow) (hrow : row ∈ s.payments.rows) :
    ∃ row' ∈ (s.setStatus p status).payments.rows, row.Same row' := by
  refine ⟨_, PaymentStore.mem_setStatus.mpr ⟨row, hrow, rfl⟩, ?_⟩
  split
  · rename_i hp
    exact ⟨rfl, rfl, rfl, rfl, h row hp⟩
  · exact .refl row

private theorem funded_setStatus (hs : Funded cfg lower s) {p : PaymentRow → Bool}
    {status : PaymentStatus} (hstatus : status ≠ .adminGranted)
    (h : ∀ row, p row = true → row.status ≠ .paid) :
    Funded cfg lower (s.setStatus p status) := by
  have hpaid : ∀ userId, paidSum s userId ≤ paidSum (s.setStatus p status) userId :=
    paidSum_le_setStatus hs.amounts fun row hp hrow => absurd hrow (h row hp)
  constructor
  · exact hs.plans
  · exact hs.memory
  · intro row hrow
    obtain ⟨old, hold, rfl⟩ := PaymentStore.mem_setStatus.mp hrow
    have hamount := hs.amounts old hold
    split <;> exact hamount
  · intro row hrow
    obtain ⟨old, hold, rfl⟩ := PaymentStore.mem_setStatus.mp hrow
    split
    · exact hstatus
    · exact hs.granted old hold
  · intro row hrow m hm
    obtain ⟨old, hold, rfl⟩ := PaymentStore.mem_setStatus.mp hrow
    by_cases hp : p old = true
    · rw [if_pos hp] at hm ⊢
      have hprice := hs.payments old hold m hm
      have howed : owed old = old.amount := if_neg (h old hp)
      by_cases hset : status = .paid
      · subst hset
        have hadd := paidSum_add_le_setStatus hs.amounts hold hp (h old hp)
        have hnone : owed { old with status := .paid } = 0 := if_pos rfl
        rw [hnone, add_zero]
        rw [howed] at hprice
        exact hprice.trans hadd
      · have hsame : owed { old with status } = old.amount := if_neg hset
        rw [hsame]
        rw [howed] at hprice
        have hle := hpaid old.userId
        dsimp only
        linarith
    · rw [if_neg hp] at hm ⊢
      have hprice := hs.payments old hold m hm
      have hle := hpaid old.userId
      linarith
  · intro q hq m hm
    exact (hs.quotas q hq m hm).trans (hpaid q.userId)

private theorem extract_toRow (d : PaymentData) (id : String) :
    extractPlanFromPayment lower (d.toRow id) = some (.managed d.planId) := by
  have hname : ∀ p : ManagedPlanId, SubscriptionPlanId.ofName? p.name = some (.managed p) := by
    intro p
    cases p <;> decide
  simp [extractPlanFromPayment, PaymentData.toRow, hname]

private theorem funded_insert (hs : Funded cfg lower s) {d : PaymentData} {id : String}
    (hid : (d.toRow id).id ∉ s.payments.rows.map PaymentRow.id)
    (howner : ∃ a ∈ s.subs.users.rows, a.id = (d.toRow id).userId) (hstatus : d.status = .pending)
    (hamount : 0 ≤ d.amount)
    (hprice : (cfg d.planId).monthlyPriceDt ≤ paidSum s d.userId + d.amount) :
    Funded cfg lower (s.insertPayment (d.toRow id) hid howner) := by
  have hpaid := paidSum_insert hid howner hstatus
  constructor
  · exact hs.plans
  · exact hs.memory
  · intro row hrow
    rcases List.mem_append.mp hrow with hrow | hrow
    · exact hs.amounts row hrow
    · obtain rfl := List.mem_singleton.mp hrow
      exact hamount
  · intro row hrow
    rcases List.mem_append.mp hrow with hrow | hrow
    · exact hs.granted row hrow
    · obtain rfl := List.mem_singleton.mp hrow
      change d.status ≠ .adminGranted
      simp [hstatus]
  · intro row hrow m hm
    rw [hpaid]
    rcases List.mem_append.mp hrow with hrow | hrow
    · exact hs.payments row hrow m hm
    · obtain rfl := List.mem_singleton.mp hrow
      rw [extract_toRow] at hm
      cases hm
      have howed : owed (d.toRow id) = d.amount := by
        have hnot : ¬ (d.toRow id).status = .paid := by
          change ¬ d.status = .paid
          simp [hstatus]
        exact if_neg hnot
      rw [howed]
      exact hprice
  · intro q hq m hm
    rw [hpaid]
    exact hs.quotas q hq m hm

/-- What a call has to say for itself: a payment makes up for what its plan costs, an activation
is paid for. -/
def PaysFor (cfg : ManagedCatalog) (s : PaymentStore) : PaymentCall → Prop
  | .createPayment d => d.status = .pending ∧ 0 ≤ d.amount ∧
      (cfg d.planId).monthlyPriceDt ≤ paidSum s d.userId + d.amount
  | .activate _ userId planId =>
      ∀ p, planId = .managed p → (cfg p).monthlyPriceDt ≤ paidSum s userId
  | _ => True

theorem funded_of_mayServe (hcfg : Fair cfg) (hs : Funded cfg lower s) {json : PlanCatalogJson}
    {c : PaymentCall} {r : c.Answer} (hc : PaysFor cfg s c) (h : c.mayServe json s r s') :
    Funded cfg lower s' ∧ Grows s s' := by
  have hsame : s' = s → Funded cfg lower s' ∧ Grows s s' := by
    rintro rfl
    exact ⟨hs, Grows.refl _⟩
  rcases PaymentCall.carried_of_mayServe h with h | ⟨r', h⟩
  · exact hsame h
  cases c with
  | getPlanCatalog =>
    simp only [PaymentCall.serve] at h
    split at h
    · exact hsame h.2
    · obtain ⟨out, t, ht, -, rfl⟩ := h
      obtain ⟨hsubs, hpayments, -, hout⟩ := remote_catalog hs ht
      refine ⟨hs.of_quotas hpayments (congrArg SubscriptionDb.plans hsubs) ?_ ?_,
        grows_of_payments hpayments⟩
      · intro catalog hcatalog
        cases out with
        | error e => cases hcatalog
        | ok value =>
          obtain rfl := Option.some.inj hcatalog
          exact hout _ rfl
      · intro q hq
        change q ∈ t.subs.quotas.rows at hq
        rw [hsubs] at hq
        exact .inl hq
  | studentVerification userId => exact hsame h.2
  | subscriptionAccess userId =>
    obtain ⟨out, ht, -⟩ := h
    obtain ⟨hsubs, hpayments, hmemory, -⟩ := remote_catalog hs ht
    refine ⟨hs.of_quotas hpayments (congrArg SubscriptionDb.plans hsubs) ?_ ?_,
      grows_of_payments hpayments⟩
    · rw [hmemory]
      exact hs.memory
    · rw [hsubs]
      exact fun q hq => .inl hq
  | activate payment userId planId =>
    obtain ⟨out, ht, -⟩ := h
    obtain ⟨hfunded, hpayments⟩ := funded_activate hcfg hs hc ht
    exact ⟨hfunded, grows_of_payments hpayments⟩
  | createSession data => exact hsame h.2
  | retrieveSession sessionId => exact hsame h.2
  | createEvent eventId type =>
    rcases h with ⟨hnew, -, rfl⟩ | ⟨-, -, h⟩
    · exact ⟨hs.of_quotas rfl rfl hs.memory fun q hq => .inl hq, grows_of_payments rfl⟩
    · exact hsame h
  | findStripePayments sessionId => exact hsame h.2
  | markPaid ids =>
    obtain ⟨-, rfl⟩ := h
    have hunpaid : ∀ row : PaymentRow, (ids.contains row.id && !row.status.settled) = true →
        row.status ≠ .paid := by
      intro row hp hpaid
      simp [hpaid, PaymentStatus.settled] at hp
    refine ⟨funded_setStatus hs (by simp) hunpaid, ?_, ?_⟩
    · exact same_setStatus fun _ _ _ => rfl
    · exact paidSum_le_setStatus hs.amounts fun row _ _ => rfl
  | markExpired sessionId =>
    obtain ⟨-, rfl⟩ := h
    have hpending : ∀ row : PaymentRow,
        (row.ofSession sessionId && decide (row.status = .pending)) = true →
          row.status = .pending := by
      intro row hp
      simp only [Bool.and_eq_true, decide_eq_true_eq] at hp
      exact hp.2
    refine ⟨funded_setStatus hs (by simp) ?_, ?_, ?_⟩
    · intro row hp
      simp [hpending row hp]
    · apply same_setStatus
      intro row hp hsettled
      simp [hpending row hp, PaymentStatus.settled] at hsettled
    · apply paidSum_le_setStatus hs.amounts
      intro row hp hpaid
      simp [hpending row hp] at hpaid
  | createPayment d =>
    rcases h with ⟨id, hid, howner, -, rfl⟩ | ⟨-, -, h⟩
    · obtain ⟨hstatus, hamount, hprice⟩ := hc
      refine ⟨funded_insert hs hid howner hstatus hamount hprice, ?_, ?_⟩
      · intro row hrow
        exact ⟨row, List.mem_append_left _ hrow, .refl row⟩
      · intro userId
        exact (paidSum_insert hid howner hstatus userId).ge
    · exact hsame h

end Funded

end Credit

end CloudVM
