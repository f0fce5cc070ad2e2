import CloudVM.Billing.User
import CloudVM.Framework.Table

/-!
# The tables under the user service

`users`, `user_quotas` and `plan_configs`, with the foreign key of the quotas, and what each call
answers and leaves behind.
-/

namespace CloudVM

structure SubscriptionDb where
  users : Table Account.id
  quotas : Table UserQuota.userId
  owner : ∀ q ∈ quotas.rows, ∃ a ∈ users.rows, a.id = q.userId
  plans : PlanTable

namespace SubscriptionDb

def sample : SubscriptionDb where
  users := ⟨[⟨"u", .user, true⟩], by decide⟩
  quotas := .empty
  owner := by simp
  plans := ⟨PlanConfigRow.samples, by decide⟩

variable (s : SubscriptionDb)

section Updates

def setPlans (plans : PlanTable) : SubscriptionDb := { s with plans }

/-- The `upsert` of a quota row whose user exists. -/
def putQuota (q : UserQuota) (h : ∃ a ∈ s.users.rows, a.id = q.userId) : SubscriptionDb where
  users := s.users
  quotas := s.quotas.upsert q
  owner := by
    intro x hx
    rcases s.quotas.mem_upsert hx with rfl | ⟨hx, -⟩
    · exact h
    · exact s.owner x hx
  plans := s.plans

private theorem mem_users_upsert {users : Table Account.id} (account : Account) {a : Account}
    (h : a ∈ users.rows) : ∃ b ∈ (users.upsert account).rows, b.id = a.id := by
  have hfind := users.find?_upsert account a.id
  by_cases hid : account.id = a.id
  · rw [if_pos hid, Table.find?_eq_some] at hfind
    exact ⟨account, hfind⟩
  · have ha : users.find? a.id = some a := users.find?_eq_some.mpr ⟨h, rfl⟩
    rw [if_neg hid, ha, Table.find?_eq_some] at hfind
    exact ⟨a, hfind⟩

/-- The `upsert` of a user. -/
def putUser (account : Account) : SubscriptionDb where
  users := s.users.upsert account
  quotas := s.quotas
  owner := by
    intro q hq
    obtain ⟨a, ha, hid⟩ := s.owner q hq
    obtain ⟨b, hb, hba⟩ := mem_users_upsert account ha
    exact ⟨b, hb, hba.trans hid⟩
  plans := s.plans

/-- The `delete` of a user, which takes the quota row along. -/
def removeUser (userId : String) : SubscriptionDb where
  users := s.users.erase fun a => a.id = userId
  quotas := s.quotas.erase fun q => q.userId = userId
  owner := by
    intro q hq
    obtain ⟨hq, hne⟩ := (Table.mem_erase _ _ _).mp hq
    obtain ⟨a, ha, hid⟩ := s.owner q hq
    refine ⟨a, (Table.mem_erase _ _ _).mpr ⟨ha, ?_⟩, hid⟩
    rw [hid]
    exact hne
  plans := s.plans

end Updates

def lookup (userId : String) : Option (Account × Option UserQuota) :=
  (s.users.find? userId).map fun a => (a, s.quotas.find? userId)

def currentCatalog : ManagedCatalog := managedCatalog s.plans.rows

/-- The columns of a user after an `update`. -/
def patchUser (a : Account) (role : Option Role) (isActive : Option Bool) : Account :=
  { a with role := role.getD a.role, isActive := isActive.getD a.isActive }

end SubscriptionDb

/-- A plan that is in the table stays as it is; of several new rows the first counts. -/
theorem find?_insertPlans (plans : PlanTable) (rows : List PlanConfigRow) (p : ManagedPlanId) :
    (insertPlans plans rows).find? p = (plans.find? p).or (planRow? rows p) := by
  induction rows generalizing plans with
  | nil => simp [insertPlans, planRow?]
  | cons row rows ih =>
    have hnext : planRow? (row :: rows) p =
        if row.planId = p then some row else planRow? rows p := by
      by_cases hp : row.planId = p <;> simp [planRow?, hp]
    unfold insertPlans
    split
    · rename_i hthere
      rw [ih, hnext]
      by_cases hp : row.planId = p
      · obtain ⟨old, hold, hid⟩ := List.mem_map.mp hthere
        have hfind : plans.find? p = some old := plans.find?_eq_some.mpr ⟨hold, hid.trans hp⟩
        simp [hfind]
      · simp [hp]
    · rename_i hfree
      rw [ih, hnext, Table.find?_insert]
      by_cases hp : row.planId = p
      · subst hp
        have hnone : plans.find? row.planId = none := (plans.key_free_iff row).mp hfree
        simp [hnone]
      · simp [hp]

namespace SubscriptionCall

variable {s s' : SubscriptionDb}

/-- The database refuses: nothing is written and the call fails. -/
def Refused {c : SubscriptionCall} (s : SubscriptionDb) (r : c.Answer) (s' : SubscriptionDb) : Prop :=
  (∃ e, r = .error e) ∧ s' = s

/-- What Postgres answers to a call that reaches it, and the tables it leaves. -/
def serve (c : SubscriptionCall) (s : SubscriptionDb) (r : c.Answer) (s' : SubscriptionDb) : Prop :=
  match c with
  | .findUser userId => r = .ok (s.lookup userId) ∧ s' = s
  | .findPlans => ∃ rows : List PlanConfigRow, rows.Perm s.plans.rows ∧
      rows.Pairwise (fun a b => a.rank ≤ b.rank) ∧ r = .ok rows ∧ s' = s
  | .ensurePlanConfigTable => r = .ok () ∧ s' = s
  | .createPlans data =>
    match data.mapM PlanData.row with
    | some rows => r = .ok () ∧ s' = s.setPlans (insertPlans s.plans rows)
    | none => Refused (c := .createPlans data) s r s'
  | .upsertQuota userId planId limits =>
    (∃ h, r = .ok ⟨userId, some planId, limits⟩ ∧ s' = s.putQuota ⟨userId, some planId, limits⟩ h) ∨
      ((∀ a ∈ s.users.rows, a.id ≠ userId) ∧
        Refused (c := .upsertQuota userId planId limits) s r s')
  | .upsertUser account => r = .ok account ∧ s' = s.putUser account
  | .updateUser userId role isActive =>
    match s.users.find? userId with
    | some a =>
      r = .ok (SubscriptionDb.patchUser a role isActive) ∧
        s' = s.putUser (SubscriptionDb.patchUser a role isActive)
    | none => Refused (c := .updateUser userId role isActive) s r s'
  | .deleteUser userId =>
    match s.users.find? userId with
    | some _ => r = .ok () ∧ s' = s.removeUser userId
    | none => Refused (c := .deleteUser userId) s r s'
  | .findPlan planId => r = .ok (s.plans.find? planId) ∧ s' = s
  | .updatePlan planId payload =>
    match (s.plans.find? planId).bind payload.patch with
    | some row => r = .ok row ∧ s' = s.setPlans (s.plans.upsert row)
    | none => Refused (c := .updatePlan planId payload) s r s'

/-- A call may also be reported as failed, whether or not it was carried out. -/
def mayServe (c : SubscriptionCall) (s : SubscriptionDb) (r : c.Answer) (s' : SubscriptionDb) :
    Prop := c.serve s r s' ∨ ((∃ e, r = .error e) ∧ (s' = s ∨ ∃ r', c.serve s r' s'))

theorem carried_of_mayServe {c : SubscriptionCall} {r : c.Answer} (h : c.mayServe s r s') :
    s' = s ∨ ∃ r', c.serve s r' s' := by
  rcases h with h | ⟨-, h⟩
  · exact .inr ⟨r, h⟩
  · exact h

theorem plans_of_serve {c : SubscriptionCall} {r : c.Answer} (h : c.serve s r s') :
    s'.plans = s.plans ∨
    (∃ data rows, c = .createPlans data ∧ data.mapM PlanData.row = some rows ∧
      s'.plans = insertPlans s.plans rows) ∨
    ∃ planId payload old row, c = .updatePlan planId payload ∧
      s.plans.find? planId = some old ∧ payload.patch old = some row ∧
      s'.plans = s.plans.upsert row := by
  cases c with
  | findUser userId =>
    obtain ⟨-, rfl⟩ := h
    exact .inl rfl
  | findPlans =>
    obtain ⟨rows, -, -, -, rfl⟩ := h
    exact .inl rfl
  | ensurePlanConfigTable =>
    obtain ⟨-, rfl⟩ := h
    exact .inl rfl
  | createPlans data =>
    simp only [serve] at h
    split at h
    · rename_i rows hrows
      obtain ⟨-, rfl⟩ := h
      exact .inr (.inl ⟨data, rows, rfl, hrows, rfl⟩)
    · obtain ⟨-, rfl⟩ := h
      exact .inl rfl
  | upsertQuota userId planId limits =>
    rcases h with ⟨howner, -, rfl⟩ | ⟨-, -, rfl⟩
    · exact .inl rfl
    · exact .inl rfl
  | upsertUser account =>
    obtain ⟨-, rfl⟩ := h
    exact .inl rfl
  | updateUser userId role isActive =>
    simp only [serve] at h
    split at h
    · obtain ⟨-, rfl⟩ := h
      exact .inl rfl
    · obtain ⟨-, rfl⟩ := h
      exact .inl rfl
  | deleteUser userId =>
    simp only [serve] at h
    split at h
    · obtain ⟨-, rfl⟩ := h
      exact .inl rfl
    · obtain ⟨-, rfl⟩ := h
      exact .inl rfl
  | findPlan planId =>
    obtain ⟨-, rfl⟩ := h
    exact .inl rfl
  | updatePlan planId payload =>
    simp only [serve] at h
    split at h
    · rename_i row hrow
      obtain ⟨old, hold, hpatch⟩ := Option.bind_eq_some_iff.mp hrow
      obtain ⟨-, rfl⟩ := h
      exact .inr (.inr ⟨planId, payload, old, row, rfl, hold, hpatch, rfl⟩)
    · obtain ⟨-, rfl⟩ := h
      exact .inl rfl

theorem quotas_of_serve {c : SubscriptionCall} {r : c.Answer} (h : c.serve s r s') {q : UserQuota}
    (hq : q ∈ s'.quotas.rows) :
    (q ∈ s.quotas.rows ∧ ∀ u p l, c = .upsertQuota u p l → q.userId ≠ u) ∨
      ∃ p, c = .upsertQuota q.userId p q.limits ∧ q.planId = some p := by
  have hkeep : (∀ u p l, c ≠ .upsertQuota u p l) → s'.quotas = s.quotas →
      (q ∈ s.quotas.rows ∧ ∀ u p l, c = .upsertQuota u p l → q.userId ≠ u) ∨
        ∃ p, c = .upsertQuota q.userId p q.limits ∧ q.planId = some p := by
    intro hc hs
    rw [hs] at hq
    exact .inl ⟨hq, fun u p l h => (hc u p l h).elim⟩
  cases c with
  | findUser userId =>
    obtain ⟨-, rfl⟩ := h
    exact hkeep (by simp) rfl
  | findPlans =>
    obtain ⟨rows, -, -, -, rfl⟩ := h
    exact hkeep (by simp) rfl
  | ensurePlanConfigTable =>
    obtain ⟨-, rfl⟩ := h
    exact hkeep (by simp) rfl
  | createPlans data =>
    simp only [serve] at h
    split at h
    · obtain ⟨-, rfl⟩ := h
      exact hkeep (by simp) rfl
    · obtain ⟨-, rfl⟩ := h
      exact hkeep (by simp) rfl
  | upsertQuota userId planId limits =>
    rcases h with ⟨howner, -, rfl⟩ | ⟨hnone, -, rfl⟩
    · rcases s.quotas.mem_upsert hq with rfl | ⟨hq, hne⟩
      · exact .inr ⟨planId, rfl, rfl⟩
      · left
        refine ⟨hq, ?_⟩
        intro u p l he
        cases he
        exact hne
    · left
      refine ⟨hq, ?_⟩
      intro u p l he hu
      cases he
      obtain ⟨a, ha, hid⟩ := s'.owner q hq
      exact hnone a ha (hid.trans hu)
  | upsertUser account =>
    obtain ⟨-, rfl⟩ := h
    exact hkeep (by simp) rfl
  | updateUser userId role isActive =>
    simp only [serve] at h
    split at h
    · obtain ⟨-, rfl⟩ := h
      exact hkeep (by simp) rfl
    · obtain ⟨-, rfl⟩ := h
      exact hkeep (by simp) rfl
  | deleteUser userId =>
    simp only [serve] at h
    split at h
    · obtain ⟨-, rfl⟩ := h
      exact .inl ⟨((Table.mem_erase _ _ _).mp hq).1, by simp⟩
    · obtain ⟨-, rfl⟩ := h
      exact hkeep (by simp) rfl
  | findPlan planId =>
    obtain ⟨-, rfl⟩ := h
    exact hkeep (by simp) rfl
  | updatePlan planId payload =>
    simp only [serve] at h
    split at h
    · obtain ⟨-, rfl⟩ := h
      exact hkeep (by simp) rfl
    · obtain ⟨-, rfl⟩ := h
      exact hkeep (by simp) rfl

end SubscriptionCall

end CloudVM
