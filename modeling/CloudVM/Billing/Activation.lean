import CloudVM.Billing.Store
import CloudVM.Framework.Logic

/-!
# What an activation writes

Once the catalog is complete it stays so, and every read of it gives the plans of the table. An
activation then leaves the tables alone or writes one quota row: the plan that is due to the user,
with the limits of the current catalog.
-/

namespace CloudVM

open Process UserService SubscriptionCall

def SubscriptionDb.Complete (s : SubscriptionDb) : Prop := ∀ p, (s.plans.find? p).isSome = true

section Complete

variable {s s' : SubscriptionDb}

theorem complete_of_serve {c : SubscriptionCall} {r : c.Answer} (hs : s.Complete)
    (h : c.serve s r s') : s'.Complete := by
  intro p
  rcases plans_of_serve h with hplans | ⟨data, rows, -, -, hplans⟩ | ⟨-, -, old, row, -, -, -, hplans⟩
  · rw [hplans]
    exact hs p
  · obtain ⟨old, hold⟩ := Option.isSome_iff_exists.mp (hs p)
    rw [hplans, find?_insertPlans, hold]
    rfl
  · rw [hplans, Table.find?_upsert]
    split
    · rfl
    · exact hs p

theorem complete_of_mayServe (c : SubscriptionCall) (s : SubscriptionDb) (r : c.Answer)
    (s' : SubscriptionDb) (hs : s.Complete) (h : c.mayServe s r s') : s'.Complete := by
  rcases carried_of_mayServe h with rfl | ⟨r', h⟩
  · exact hs
  · exact complete_of_serve hs h

theorem catalog_of_perm (hs : s.Complete) {rows : List PlanConfigRow} (h : rows.Perm s.plans.rows) :
    buildPlanCatalogFromRows rows = .ok s.currentCatalog := by
  have hnodup : (rows.map PlanConfigRow.planId).Nodup :=
    (h.map PlanConfigRow.planId).nodup_iff.mpr s.plans.nodup
  rw [buildPlanCatalogFromRows_ok]
  intro p
  obtain ⟨row, hrow⟩ := Option.isSome_iff_exists.mp (hs p)
  obtain ⟨hmem, hid⟩ := (Table.find?_eq_some _).mp hrow
  have hfind : (⟨rows, hnodup⟩ : PlanTable).find? p = some row :=
    (Table.find?_eq_some _).mpr ⟨h.mem_iff.mpr hmem, hid⟩
  refine ⟨row, hfind, ?_⟩
  have htable : planRow? s.plans.rows p = some row := hrow
  simp [SubscriptionDb.currentCatalog, managedCatalog, htable]

theorem current_of_perm {rows : List PlanConfigRow} (h : rows.Perm s.plans.rows)
    {catalog : ManagedCatalog} (hbuild : buildPlanCatalogFromRows rows = .ok catalog) :
    catalog = s.currentCatalog := by
  have hs : s.Complete := by
    intro p
    obtain ⟨row, hrow, -⟩ := (buildPlanCatalogFromRows_ok.mp hbuild) p
    have hmem : row ∈ s.plans.rows := h.mem_iff.mp (List.mem_of_find?_eq_some hrow)
    have hid : row.planId = p := by simpa using List.find?_some hrow
    exact Option.isSome_iff_exists.mpr ⟨row, (Table.find?_eq_some _).mpr ⟨hmem, hid⟩⟩
  rw [catalog_of_perm hs h] at hbuild
  exact (Except.ok.inj hbuild).symm

private theorem rows_ne_nil (hs : s.Complete) {rows : List PlanConfigRow}
    (h : rows.Perm s.plans.rows) : rows ≠ [] := by
  rintro rfl
  have hnil : s.plans.rows = [] := h.symm.eq_nil
  have hone := hs .student
  simp [Table.find?, hnil] at hone

end Complete

section Reads

variable {s s' : SubscriptionDb}

theorem findUser_of_mayServe {userId : String} {r : (SubscriptionCall.findUser userId).Answer}
    (h : (SubscriptionCall.findUser userId).mayServe s r s') :
    s' = s ∧ (r = .ok (s.lookup userId) ∨ ∃ e, r = .error e) := by
  rcases h with ⟨hr, rfl⟩ | ⟨hr, rfl | ⟨r', -, rfl⟩⟩
  · exact ⟨rfl, .inl hr⟩
  · exact ⟨rfl, .inr hr⟩
  · exact ⟨rfl, .inr hr⟩

theorem findPlans_of_mayServe {r : SubscriptionCall.findPlans.Answer}
    (h : SubscriptionCall.findPlans.mayServe s r s') :
    s' = s ∧ ((∃ rows : List PlanConfigRow, rows.Perm s.plans.rows ∧ r = .ok rows) ∨
      ∃ e, r = .error e) := by
  rcases h with ⟨rows, hperm, -, hr, rfl⟩ | ⟨hr, rfl | ⟨r', rows, -, -, -, rfl⟩⟩
  · exact ⟨rfl, .inl ⟨rows, hperm, hr⟩⟩
  · exact ⟨rfl, .inr hr⟩
  · exact ⟨rfl, .inr hr⟩

theorem ensureTable_of_mayServe {r : SubscriptionCall.ensurePlanConfigTable.Answer}
    (h : SubscriptionCall.ensurePlanConfigTable.mayServe s r s') : s' = s := by
  rcases carried_of_mayServe h with rfl | ⟨r', -, rfl⟩
  · rfl
  · rfl

end Reads

section Users

variable {json : PlanCatalogJson} {s s' : SubscriptionDb}

def LoadsCatalog : SubscriptionCall → Prop
  | .findPlans => True
  | .ensurePlanConfigTable => True
  | .createPlans _ => True
  | _ => False

theorem getPlanCatalog_only : (getPlanCatalog json).Only LoadsCatalog := by
  have hfind : findPlans.Only LoadsCatalog := ⟨trivial, fun r => only_ofExcept r⟩
  have hread : readPlans.Only LoadsCatalog := by
    have hensure : ensurePlanConfigTable.Only LoadsCatalog := ⟨trivial, fun r => only_ofExcept r⟩
    apply only_tryCatch hfind
    intro e
    split
    · exact only_bind hensure fun _ => hfind
    · exact only_raise _
  have hseed : (seedPlans json).Only LoadsCatalog := by
    apply only_bind (only_ofExcept _)
    intro seed
    have hcreate : (UserService.createPlans seed).Only LoadsCatalog := ⟨trivial, fun r => only_ofExcept r⟩
    apply only_bind hcreate
    intro _
    apply only_bind hfind
    intro rows
    split
    · exact only_raise _
    · exact only_ofExcept _
  apply only_bind hread
  intro rows
  split
  · exact hseed
  · exact only_ofExcept _

def KeepsUsers : SubscriptionCall → Prop
  | .upsertUser _ => False
  | .updateUser _ _ _ => False
  | .deleteUser _ => False
  | _ => True

theorem accounts_of_mayServe {c : SubscriptionCall} {r : c.Answer}
    (hc : KeepsUsers c) (h : c.mayServe s r s') : s'.users = s.users := by
  rcases carried_of_mayServe h with rfl | ⟨r', h⟩
  · rfl
  · cases c with
    | findUser userId => rw [h.2]
    | findPlans =>
      obtain ⟨rows, -, -, -, rfl⟩ := h
      rfl
    | ensurePlanConfigTable => rw [h.2]
    | createPlans data =>
      simp only [serve] at h
      split at h
      · rw [h.2]
        rfl
      · rw [h.2]
    | upsertQuota userId planId limits =>
      rcases h with ⟨howner, -, rfl⟩ | ⟨-, -, rfl⟩
      · rfl
      · rfl
    | upsertUser account => exact hc.elim
    | updateUser userId role isActive => exact hc.elim
    | deleteUser userId => exact hc.elim
    | findPlan planId => rw [h.2]
    | updatePlan planId payload =>
      simp only [serve] at h
      split at h
      · rw [h.2]
        rfl
      · rw [h.2]

theorem keepsUsers_getPlanCatalog : (getPlanCatalog json).Only KeepsUsers := by
  apply getPlanCatalog_only.mono
  intro c hc
  cases c with
  | findPlans => trivial
  | ensurePlanConfigTable => trivial
  | createPlans data => trivial
  | _ => exact hc.elim

theorem keepsUsers_activate (userId : String) (planId : SubscriptionPlanId) :
    (activateSubscriptionPlanFromInternal json userId planId).Only KeepsUsers := by
  have huser : (existingUser userId).Only KeepsUsers := by
    have hfind : (UserService.findUser userId).Only KeepsUsers := ⟨trivial, fun r => only_ofExcept r⟩
    apply only_bind hfind
    intro found
    split
    · exact only_ret _
    · exact only_raise _
  apply only_bind huser
  intro found
  have hquota : ∀ p, (UserService.upsertQuota json userId p).Only KeepsUsers := by
    intro p
    apply only_bind keepsUsers_getPlanCatalog
    intro catalog
    exact ⟨trivial, fun r => only_ofExcept r⟩
  apply only_bind (hquota _)
  intro quota
  exact only_ret _

end Users

section Activation

variable {json : PlanCatalogJson} {s : SubscriptionDb}

theorem findPlans_wp (s : SubscriptionDb) :
    findPlans.Wp (fun _ _ => True) mayServe
      (Post (fun rows t => t = s ∧ rows.Perm s.plans.rows) fun _ t => t = s) s := by
  refine ⟨trivial, fun r t h => ?_⟩
  obtain ⟨rfl, ⟨rows, hperm, rfl⟩ | ⟨e, rfl⟩⟩ := findPlans_of_mayServe h
  · exact ⟨rfl, hperm⟩
  · rfl

theorem readPlans_keeps (s : SubscriptionDb) :
    readPlans.Wp (fun _ _ => True) mayServe
      (Post (fun rows t => t = s ∧ rows.Perm s.plans.rows) fun _ t => t = s) s := by
  refine (wp_tryCatch _ _ _ _).mpr ((findPlans_wp s).mono ?_)
  intro out t hout
  cases out with
  | ok rows => exact hout
  | error e =>
    obtain rfl : t = s := hout
    simp only [post_error]
    split
    · refine (wp_bind _ _ _ _).mpr ⟨trivial, fun r t' h => ?_⟩
      obtain rfl := ensureTable_of_mayServe h
      rw [wp_ofExcept]
      cases r with
      | error e => rfl
      | ok u => exact findPlans_wp _
    · rfl

/-- Over a complete table the catalog that is read is the one in the table. -/
theorem getPlanCatalog_reads (hs : s.Complete) :
    (getPlanCatalog json).Wp (fun _ _ => True) mayServe
      (Post (fun catalog t => t = s ∧ catalog = s.currentCatalog) fun _ t => t = s) s := by
  refine (wp_bind _ _ _ _).mpr ((readPlans_keeps s).mono ?_)
  intro out t hout
  cases out with
  | error e => exact hout
  | ok rows =>
    obtain ⟨rfl, hperm⟩ := hout
    simp only [post_ok, if_neg (rows_ne_nil hs hperm), catalog_of_perm hs hperm]
    exact ⟨rfl, rfl⟩

/-- The users and their quotas are as before. -/
structure SameUsers (s t : SubscriptionDb) : Prop where
  users : t.users = s.users
  quotas : t.quotas = s.quotas

theorem SameUsers.refl (s : SubscriptionDb) : SameUsers s s := ⟨rfl, rfl⟩

private theorem createPlans_same {data : List PlanData} {t : SubscriptionDb}
    {r : (SubscriptionCall.createPlans data).Answer}
    (h : (SubscriptionCall.createPlans data).mayServe s r t) : SameUsers s t := by
  rcases carried_of_mayServe h with rfl | ⟨r', h⟩
  · exact .refl _
  · simp only [serve] at h
    split at h
    · rw [h.2]
      exact ⟨rfl, rfl⟩
    · rw [h.2]
      exact .refl s

/-- A catalog that is loaded, from the table or after a seed, is the one in the table. -/
theorem getPlanCatalog_current (s : SubscriptionDb) :
    (getPlanCatalog json).Wp (fun _ _ => True) mayServe
      (Post (fun catalog t => SameUsers s t ∧ catalog = t.currentCatalog)
        fun _ t => SameUsers s t) s := by
  have hbuilt : ∀ (t : SubscriptionDb) (rows : List PlanConfigRow), SameUsers s t →
      rows.Perm t.plans.rows → Post (fun catalog t => SameUsers s t ∧ catalog = t.currentCatalog)
        (fun _ t => SameUsers s t) (buildPlanCatalogFromRows rows) t := by
    intro t rows ht hperm
    cases hbuild : buildPlanCatalogFromRows rows with
    | error e => exact ht
    | ok catalog => exact ⟨ht, current_of_perm hperm hbuild⟩
  refine (wp_bind _ _ _ _).mpr ((readPlans_keeps s).mono ?_)
  intro out t hout
  cases out with
  | error e =>
    obtain rfl : t = s := hout
    exact .refl t
  | ok rows =>
    obtain ⟨rfl, hperm⟩ := hout
    simp only [post_ok]
    split
    · refine (wp_bind _ _ _ _).mpr ((wp_ofExcept _ _ _).mpr ?_)
      cases loadManagedSubscriptionCatalogFromEnv json with
      | error e => exact .refl t
      | ok seed =>
        refine (wp_bind _ _ _ _).mpr ⟨trivial, fun r u h => (wp_ofExcept _ _ _).mpr ?_⟩
        have hu : SameUsers t u := createPlans_same h
        cases r with
        | error e => exact hu
        | ok _ =>
          refine (wp_bind _ _ _ _).mpr ((findPlans_wp u).mono ?_)
          intro out v hout
          cases out with
          | error e =>
            obtain rfl : v = u := hout
            exact hu
          | ok seededRows =>
            obtain ⟨rfl, hseeded⟩ := hout
            simp only [post_ok]
            split
            · exact hu
            · exact (wp_ofExcept _ _ _).mpr (hbuilt v seededRows hu hseeded)
    · exact (wp_ofExcept _ _ _).mpr (hbuilt t rows (.refl t) hperm)

def dueQuota (s : SubscriptionDb) (a : Account) (planId : SubscriptionPlanId) : UserQuota where
  userId := a.id
  planId := some (finalPlan a.role planId)
  limits := (catalogEntry s.currentCatalog (finalPlan a.role planId)).quota

/-- The tables are as before, or the user has the row that is due. -/
def ActivationLeaves (s : SubscriptionDb) (userId : String) (planId : SubscriptionPlanId)
    (t : SubscriptionDb) : Prop :=
  t = s ∨ ∃ a h, s.users.find? userId = some a ∧ t = s.putQuota (dueQuota s a planId) h

private theorem writeQuota_leaves {a : Account} {userId : String} {planId : SubscriptionPlanId}
    (ha : s.users.find? userId = some a) {r : Except Failure UserQuota} {t : SubscriptionDb}
    (h : mayServe (.upsertQuota userId (finalPlan a.role planId)
      (catalogEntry s.currentCatalog (finalPlan a.role planId)).quota) s r t) :
    ActivationLeaves s userId planId t := by
  obtain rfl := ((Table.find?_eq_some _).mp ha).2
  rcases carried_of_mayServe h with rfl | ⟨r', h⟩
  · exact .inl rfl
  · rcases h with ⟨howner, -, rfl⟩ | ⟨-, -, rfl⟩
    · exact .inr ⟨a, howner, ha, rfl⟩
    · exact .inl rfl

/-- Whatever calls fail, an activation writes nothing but the row that is due. -/
theorem activation_leaves (hs : s.Complete) (userId : String) (planId : SubscriptionPlanId) :
    (activateSubscriptionPlanFromInternal json userId planId).Wp (fun _ _ => True) mayServe
      (fun _ t => ActivationLeaves s userId planId t) s := by
  refine (wp_bind _ _ _ _).mpr ((wp_bind _ _ _ _).mpr ⟨trivial, fun r t h => ?_⟩)
  obtain ⟨rfl, rfl | ⟨e, rfl⟩⟩ := findUser_of_mayServe h
  · cases ha : t.users.find? userId with
    | none =>
      simp only [SubscriptionDb.lookup, ha, Option.map_none]
      exact .inl rfl
    | some a =>
      simp only [SubscriptionDb.lookup, ha, Option.map_some]
      refine (wp_bind _ _ _ _).mpr ((wp_bind _ _ _ _).mpr ((getPlanCatalog_reads hs).mono ?_))
      intro out u hout
      cases out with
      | error e => exact .inl hout
      | ok catalog =>
        obtain ⟨rfl, rfl⟩ := hout
        refine ⟨trivial, fun r v h => ?_⟩
        rw [wp_ofExcept]
        have hleaves := writeQuota_leaves ha h
        cases r with
        | error e => exact hleaves
        | ok quota => exact hleaves
  · exact .inl rfl

private def byRank (a b : PlanConfigRow) : Bool := a.rank ≤ b.rank

private theorem findPlans_ends (s : SubscriptionDb) :
    ∃ rows : List PlanConfigRow, rows.Perm s.plans.rows ∧
      findPlans.Ends mayServe s (.ok rows) s := by
  have htrans : ∀ a b c, byRank a b = true → byRank b c = true → byRank a c = true := by
    simp only [byRank, decide_eq_true_eq]
    intro a b c hab hbc
    omega
  have htotal : ∀ a b, (byRank a b || byRank b a) = true := by
    simp only [byRank, Bool.or_eq_true, decide_eq_true_eq]
    intro a b
    omega
  have hsorted : (s.plans.rows.mergeSort byRank).Pairwise fun a b => a.rank ≤ b.rank := by
    apply (List.pairwise_mergeSort htrans htotal s.plans.rows).imp
    intro a b h
    simpa [byRank] using h
  have hperm : (s.plans.rows.mergeSort byRank).Perm s.plans.rows := List.mergeSort_perm _ _
  exact ⟨_, hperm, Ends.call (.inl ⟨_, hperm, hsorted, rfl, rfl⟩) ⟨rfl, rfl⟩⟩

theorem getPlanCatalog_ends (hs : s.Complete) :
    (getPlanCatalog json).Ends mayServe s (.ok s.currentCatalog) s := by
  obtain ⟨rows, hperm, hrows⟩ := findPlans_ends s
  have hread : readPlans.Ends mayServe s (.ok rows) s := by
    obtain ⟨r, u, he, hr⟩ := hrows
    refine ⟨r, u, he, ?_⟩
    cases r with
    | error e => cases hr.1
    | ok rows' => exact hr
  apply Ends.bind hread
  rw [if_neg (rows_ne_nil hs hperm), catalog_of_perm hs hperm]
  exact ⟨rfl, rfl⟩

theorem existingUser_ends {a : Account} {userId : String} (ha : s.users.find? userId = some a) :
    (existingUser userId).Ends mayServe s (.ok (a, s.quotas.find? userId)) s := by
  refine Ends.call (r := .ok (some (a, s.quotas.find? userId))) (.inl ⟨?_, rfl⟩) ⟨rfl, rfl⟩
  simp [SubscriptionDb.lookup, ha]

theorem upsertQuota_ends (hs : s.Complete) (userId : String) (planId : SubscriptionPlanId)
    (howner : ∃ b ∈ s.users.rows, b.id = userId) :
    (UserService.upsertQuota json userId planId).Ends mayServe s
      (.ok ⟨userId, some planId, (catalogEntry s.currentCatalog planId).quota⟩)
      (s.putQuota ⟨userId, some planId, (catalogEntry s.currentCatalog planId).quota⟩ howner) := by
  apply Ends.bind (getPlanCatalog_ends hs)
  exact Ends.call (r := .ok _) (.inl (.inl ⟨howner, rfl, rfl⟩)) ⟨rfl, rfl⟩

theorem activation_ends (hs : s.Complete) {a : Account} {userId : String}
    (planId : SubscriptionPlanId) (ha : s.users.find? userId = some a) :
    ∃ reply h, (activateSubscriptionPlanFromInternal json userId planId).Ends mayServe s
      (.ok reply) (s.putQuota (dueQuota s a planId) h) := by
  obtain ⟨hmem, rfl⟩ := (Table.find?_eq_some _).mp ha
  have howner : ∃ b ∈ s.users.rows, b.id = a.id := ⟨a, hmem, rfl⟩
  exact ⟨_, howner, Ends.bind (existingUser_ends ha)
    (Ends.bind (upsertQuota_ends hs a.id (finalPlan a.role planId) howner) ⟨rfl, rfl⟩)⟩

end Activation

end CloudVM
