import CloudVM.Billing.Activation
import CloudVM.Framework.Phases

/-!
# A change of role

`adminUpdateUser` writes the user row, then loads the catalog and writes the quota row that goes
with the role. No transaction holds the two writes together: when the second does not come about
the first stays. A run keeps both or neither exactly when the update of the user is not carried
out, or is reported as done and so is the write of the quota, where one is due.
-/

namespace CloudVM

open Process UserService SubscriptionCall

namespace RoleChange

/-- The tables, and the column `updatedAt` of each user in milliseconds. -/
structure UserTables where
  db : SubscriptionDb
  updatedAt : String → Nat

/-- What becomes of a call: done, failed without effect, or carried out and reported as failed. -/
inductive Fate where
  | done
  | failed
  | lost
deriving DecidableEq, Repr

/-- The calls so far, each with what became of it. -/
abbrev Reports := List (SubscriptionCall × Fate)

def writtenUser? : SubscriptionCall → Option String
  | .updateUser userId _ _ => some userId
  | .upsertUser account => some account.id
  | _ => none

/-- A write of a user moves its `updatedAt` on. -/
def Stamped (c : SubscriptionCall) (before after : String → Nat) : Prop :=
  match writtenUser? c with
  | some userId => ∃ now, before userId < now ∧ after = Function.update before userId now
  | none => after = before

/-- The database carries the call out. -/
structure Carried (c : SubscriptionCall) (s : UserTables) (result : c.Result) (s' : UserTables) :
    Prop where
  serve : c.serve s.db (.ok result) s'.db
  stamped : Stamped c s.updatedAt s'.updatedAt

/-- The answer to a call and the tables after it. -/
def Fated (c : SubscriptionCall) (s : UserTables) (r : c.Answer) (s' : UserTables) : Fate → Prop
  | .done => ∃ result, r = .ok result ∧ Carried c s result s'
  | .failed => (∃ e, r = .error e) ∧ s' = s
  | .lost => (∃ e, r = .error e) ∧ ∃ result, Carried c s result s'

/-- Every outcome of the calls, kept in the reports. -/
def effect (c : SubscriptionCall) (x : UserTables × Reports) (r : c.Answer)
    (y : UserTables × Reports) : Prop :=
  ∃ fate, Fated c x.1 r y.1 fate ∧ y.2 = x.2 ++ [(c, fate)]

/-- A request to `adminUpdateUser`; `role` and `isActive` are the fields of `AdminUpdateUserDto`. -/
structure Change where
  id : String
  role : Option Role
  isActive : Option Bool
  actorRole : Option Role
  actorUserId : Option String

def Change.handle (json : PlanCatalogJson) (q : Change) : SubscriptionProcess SubscriptionReply :=
  adminUpdateUser json q.id q.role q.isActive q.actorRole q.actorUserId

/-- The `update` of the user row. -/
def Change.update (q : Change) : SubscriptionCall := .updateUser q.id q.role q.isActive

def IsAdmin (userId : String) (s : UserTables) : Prop :=
  ∃ a, s.db.users.find? userId = some a ∧ a.role = .admin

/-- The user row and the quota row are exactly as before. -/
structure AsBefore (userId : String) (s t : UserTables) : Prop where
  user : t.db.users.find? userId = s.db.users.find? userId
  updatedAt : t.updatedAt userId = s.updatedAt userId
  quota : t.db.quotas.find? userId = s.db.quotas.find? userId

/-- The quota that goes with the change of role has been installed. -/
structure Installed (q : Change) (s t : UserTables) : Prop where
  promoted : q.role = some .admin →
    t.db.quotas.find? q.id = some ⟨q.id, some .unlimited, unlimitedPlanConfig.quota⟩
  demoted : IsAdmin q.id s → q.role = some .user → t.db.quotas.find? q.id =
    some ⟨q.id, some (.managed .student), (t.db.currentCatalog .student).quota⟩

/-- What is asked of a run from `s` to `t`. -/
def AllOrNothing (q : Change) (s : UserTables) (out : Except Failure SubscriptionReply)
    (t : UserTables) : Prop :=
  Post (fun _ t => Installed q s t) (fun _ t => AsBefore q.id s t) out t

def GrantDue (q : Change) (s : UserTables) : Prop :=
  q.role = some .admin ∨ (IsAdmin q.id s ∧ q.role = some .user)

/-- The user row is not written, or it is reported as written and so is the quota that is due. -/
structure Reported (q : Change) (s : UserTables) (log : Reports) : Prop where
  kept : (q.update, Fate.lost) ∉ log
  granted : (q.update, Fate.done) ∈ log → GrantDue q s →
    ∃ planId limits, (SubscriptionCall.upsertQuota q.id planId limits, Fate.done) ∈ log

section Catalog

variable {json : PlanCatalogJson} {x : UserTables × Reports}

theorem mayServe_of_effect (c : SubscriptionCall) (x : UserTables × Reports) (r : c.Answer)
    (y : UserTables × Reports) (h : effect c x r y) : c.mayServe x.1.db r y.1.db := by
  obtain ⟨fate, hfate, -⟩ := h
  cases fate with
  | done =>
    obtain ⟨result, rfl, hcarried⟩ := hfate
    exact .inl hcarried.serve
  | failed =>
    obtain ⟨herror, hsame⟩ := hfate
    exact .inr ⟨herror, .inl (by rw [hsame])⟩
  | lost =>
    obtain ⟨herror, result, hcarried⟩ := hfate
    exact .inr ⟨herror, .inr ⟨_, hcarried.serve⟩⟩

/-- Only the reports of calls that load the catalog have been added, and no user was written. -/
structure Loading (x y : UserTables × Reports) : Prop where
  updatedAt : y.1.updatedAt = x.1.updatedAt
  before : x.2 ⊆ y.2
  added : ∀ e ∈ y.2, e ∈ x.2 ∨ LoadsCatalog e.1

private theorem loading_step {c : SubscriptionCall} {r : c.Answer} {y z : UserTables × Reports}
    (hc : LoadsCatalog c) (hy : Loading x y) (h : effect c y r z) : Loading x z := by
  obtain ⟨fate, hfate, hlog⟩ := h
  have hstamped : ∀ result t, Carried c y.1 result t → t.updatedAt = y.1.updatedAt := by
    intro result t hcarried
    have h := hcarried.stamped
    cases c with
    | updateUser userId role isActive => exact hc.elim
    | upsertUser account => exact hc.elim
    | _ => exact h
  have hupdated : z.1.updatedAt = y.1.updatedAt := by
    cases fate with
    | done =>
      obtain ⟨result, -, hcarried⟩ := hfate
      exact hstamped result z.1 hcarried
    | failed => rw [hfate.2]
    | lost =>
      obtain ⟨-, result, hcarried⟩ := hfate
      exact hstamped result z.1 hcarried
  constructor
  · rw [hupdated, hy.updatedAt]
  · intro e he
    rw [hlog]
    exact List.mem_append_left _ (hy.before he)
  · intro e he
    rw [hlog] at he
    rcases List.mem_append.mp he with he | he
    · exact hy.added e he
    · right
      rw [List.mem_singleton.mp he]
      exact hc

/-- Whatever becomes of its calls, loading the catalog leaves users and quotas alone. -/
theorem getPlanCatalog_loads (x : UserTables × Reports) :
    (getPlanCatalog json).Wp (fun _ _ => True) effect
      (fun out y => Loading x y ∧ Post (fun catalog y => SameUsers x.1.db y.1.db ∧
        catalog = y.1.db.currentCatalog) (fun _ y => SameUsers x.1.db y.1.db) out y) x := by
  have hloading : (getPlanCatalog json).Wp (fun _ _ => True) effect (fun _ y => Loading x y) x := by
    have hkeeps : (getPlanCatalog json).Keeps (fun _ _ => True) effect (Loading x) := by
      apply getPlanCatalog_only.keeps
      · intro y c _
        trivial
      · intro c y r z hc hy h
        exact loading_step hc hy h
    exact hkeeps x ⟨rfl, List.Subset.refl x.2, fun e he => .inl he⟩
  have hcurrent := (@getPlanCatalog_current json x.1.db).pullback
    (fun y : UserTables × Reports => y.1.db) mayServe_of_effect
  apply (hloading.and hcurrent).mono
  intro out y hout
  refine ⟨hout.1, ?_⟩
  cases out with
  | ok catalog => exact hout.2
  | error e => exact hout.2

end Catalog

section Grant

variable {json : PlanCatalogJson} {x : UserTables × Reports}

/-- What a grant leaves: it succeeds exactly when the write of the quota is reported as done. -/
structure Granting (userId : String) (planId : SubscriptionPlanId) (x : UserTables × Reports)
    (out : Except Failure UserQuota) (y : UserTables × Reports) : Prop where
  updatedAt : y.1.updatedAt = x.1.updatedAt
  before : x.2 ⊆ y.2
  added : ∀ e ∈ y.2, e ∈ x.2 ∨ LoadsCatalog e.1 ∨
    ∃ limits, e.1 = .upsertQuota userId planId limits
  installed : ∀ quota, out = .ok quota → y.1.db.quotas.find? userId =
    some ⟨userId, some planId, (catalogEntry y.1.db.currentCatalog planId).quota⟩
  reported : ∀ quota, out = .ok quota →
    ∃ limits, (SubscriptionCall.upsertQuota userId planId limits, Fate.done) ∈ y.2
  unreported : ∀ e, out = .error e → ∀ planId' limits,
    (SubscriptionCall.upsertQuota userId planId' limits, Fate.done) ∈ y.2 →
      (SubscriptionCall.upsertQuota userId planId' limits, Fate.done) ∈ x.2

private theorem not_loads_upsertQuota {userId : String} {planId : SubscriptionPlanId}
    {limits : QuotaLimits} : ¬ LoadsCatalog (.upsertQuota userId planId limits) := id

private theorem written_log {userId : String} {planId : SubscriptionPlanId} {limits : QuotaLimits}
    {fate : Fate} {y z : UserTables × Reports} (hy : Loading x y)
    (hlog : z.2 = y.2 ++ [(.upsertQuota userId planId limits, fate)]) :
    x.2 ⊆ z.2 ∧ (∀ e ∈ z.2, e ∈ x.2 ∨ LoadsCatalog e.1 ∨
      ∃ limits, e.1 = .upsertQuota userId planId limits) ∧
    (fate ≠ .done → ∀ planId' limits',
      (SubscriptionCall.upsertQuota userId planId' limits', Fate.done) ∈ z.2 →
        (SubscriptionCall.upsertQuota userId planId' limits', Fate.done) ∈ x.2) := by
  rw [hlog]
  refine ⟨?_, ?_, ?_⟩
  · intro e he
    exact List.mem_append_left _ (hy.before he)
  · intro e he
    rcases List.mem_append.mp he with he | he
    · rcases hy.added e he with he | he
      · exact .inl he
      · exact .inr (.inl he)
    · rw [List.mem_singleton.mp he]
      exact .inr (.inr ⟨_, rfl⟩)
  · intro hne planId' limits' he
    rcases List.mem_append.mp he with he | he
    · rcases hy.added _ he with he | he
      · exact he
      · exact (not_loads_upsertQuota he).elim
    · exact (hne (congrArg Prod.snd (List.mem_singleton.mp he)).symm).elim

private theorem writeQuota_grants {userId : String} {planId : SubscriptionPlanId}
    {y z : UserTables × Reports} (hy : Loading x y)
    {r : (SubscriptionCall.upsertQuota userId planId
      (catalogEntry y.1.db.currentCatalog planId).quota).Answer}
    (h : effect (.upsertQuota userId planId (catalogEntry y.1.db.currentCatalog planId).quota) y r z) :
    Granting userId planId x r z := by
  obtain ⟨fate, hfate, hlog⟩ := h
  obtain ⟨hbefore, hadded, hunreported⟩ := written_log hy hlog
  cases fate with
  | done =>
    obtain ⟨result, rfl, hserve, hstamped⟩ := hfate
    refine ⟨hstamped.trans hy.updatedAt, hbefore, hadded, ?_, ?_, by rintro e ⟨⟩⟩
    · intro quota _
      rcases hserve with ⟨howner, -, hdb⟩ | ⟨-, ⟨e, he⟩, -⟩
      · have hcatalog : z.1.db.currentCatalog = y.1.db.currentCatalog := by
          rw [hdb]
          rfl
        rw [hcatalog, hdb]
        exact (Table.find?_upsert _ _ _).trans (if_pos rfl)
      · cases he
    · intro quota _
      refine ⟨(catalogEntry y.1.db.currentCatalog planId).quota, ?_⟩
      rw [hlog]
      exact List.mem_append_right _ (List.mem_singleton.mpr rfl)
  | failed =>
    obtain ⟨⟨e, rfl⟩, hsame⟩ := hfate
    refine ⟨?_, hbefore, hadded, by rintro quota ⟨⟩, by rintro quota ⟨⟩, ?_⟩
    · rw [hsame, hy.updatedAt]
    · intro e' _
      exact hunreported (by simp)
  | lost =>
    obtain ⟨⟨e, rfl⟩, result, hcarried⟩ := hfate
    have hstamped : z.1.updatedAt = y.1.updatedAt := hcarried.stamped
    refine ⟨?_, hbefore, hadded, by rintro quota ⟨⟩, by rintro quota ⟨⟩, ?_⟩
    · rw [hstamped, hy.updatedAt]
    · intro e' _
      exact hunreported (by simp)

theorem upsertQuota_grants (userId : String) (planId : SubscriptionPlanId)
    (x : UserTables × Reports) :
    (UserService.upsertQuota json userId planId).Wp (fun _ _ => True) effect
      (Granting userId planId x) x := by
  refine (wp_bind _ _ _ _).mpr ((getPlanCatalog_loads x).mono ?_)
  intro out y hout
  obtain ⟨hy, hpost⟩ := hout
  cases out with
  | error e =>
    refine ⟨hy.updatedAt, hy.before, ?_, by rintro quota ⟨⟩, by rintro quota ⟨⟩, ?_⟩
    · intro e' he
      rcases hy.added e' he with he | he
      · exact .inl he
      · exact .inr (.inl he)
    · intro e' _ planId' limits he
      rcases hy.added _ he with he | he
      · exact he
      · exact (not_loads_upsertQuota he).elim
  | ok catalog =>
    obtain ⟨-, rfl⟩ := hpost
    refine ⟨trivial, fun r z h => (wp_ofExcept _ _ _).mpr ?_⟩
    exact writeQuota_grants hy h

end Grant

section Change

variable {json : PlanCatalogJson} {q : Change} {s : UserTables}

private theorem fair_untouched {t : UserTables} {log : Reports} (ht : t = s)
    (hlog : ∀ fate, (q.update, fate) ∈ log → fate = .failed) (e : Failure) :
    AllOrNothing q s (.error e) t ↔ Reported q s log := by
  constructor
  · intro _
    constructor
    · intro h
      cases hlog _ h
    · intro h
      cases hlog _ h
  · intro _
    rw [ht]
    exact ⟨rfl, rfl, rfl⟩

private theorem unfair_written {t : UserTables} {log : Reports}
    (ht : t.updatedAt q.id ≠ s.updatedAt q.id) (hlog : ¬ Reported q s log) (e : Failure) :
    AllOrNothing q s (.error e) t ↔ Reported q s log := by
  constructor
  · intro h
    exact (ht h.updatedAt).elim
  · intro h
    exact (hlog h).elim

private theorem findUser_same {userId : String} {x : UserTables × Reports}
    {r : (SubscriptionCall.findUser userId).Answer} (h : effect (.findUser userId) (s, []) r x) :
    x.1 = s ∧ (∃ fate, x.2 = [(.findUser userId, fate)]) ∧
      (r = .ok (s.db.lookup userId) ∨ ∃ e, r = .error e) := by
  have hanswer := findUser_of_mayServe (mayServe_of_effect _ _ _ _ h)
  obtain ⟨fate, hfate, hlog⟩ := h
  have hstamped : x.1.updatedAt = s.updatedAt := by
    cases fate with
    | done =>
      obtain ⟨result, -, hcarried⟩ := hfate
      exact hcarried.stamped
    | failed => rw [hfate.2]
    | lost =>
      obtain ⟨-, result, hcarried⟩ := hfate
      exact hcarried.stamped
  obtain ⟨⟨db, updatedAt⟩, log⟩ := x
  obtain ⟨rfl, hr⟩ := hanswer
  cases hstamped
  exact ⟨rfl, ⟨fate, hlog⟩, hr⟩

/-- The tables and the reports once the user row is written. -/
structure Updated (q : Change) (s : UserTables) (x : UserTables × Reports) : Prop where
  updatedAt : s.updatedAt q.id < x.1.updatedAt q.id
  reports : ∃ fate, x.2 = [(.findUser q.id, fate), (q.update, .done)]

private theorem fair_granted {x y : UserTables × Reports} {planId : SubscriptionPlanId}
    {out : Except Failure UserQuota} (hx : Updated q s x) (hdue : GrantDue q s)
    (h : Granting q.id planId x out y)
    (hinstalled : y.1.db.quotas.find? q.id = some ⟨q.id, some planId,
      (catalogEntry y.1.db.currentCatalog planId).quota⟩ → Installed q s y.1)
    (reply : SubscriptionReply) :
    AllOrNothing q s (out.map fun _ => reply) y.1 ↔ Reported q s y.2 := by
  obtain ⟨fate, hreports⟩ := hx.reports
  have hupdate : (q.update, Fate.done) ∈ y.2 := h.before (by simp [hreports])
  cases out with
  | ok quota =>
    constructor
    · intro _
      refine ⟨?_, fun _ _ => ⟨planId, h.reported quota rfl⟩⟩
      intro hlost
      rcases h.added _ hlost with hlost | hlost | ⟨limits, hlost⟩
      · simp [hreports, Change.update] at hlost
      · exact hlost
      · cases hlost
    · intro _
      exact hinstalled (h.installed quota rfl)
  | error e =>
    apply unfair_written
    · rw [h.updatedAt]
      exact (Nat.ne_of_lt hx.updatedAt).symm
    · intro hreported
      obtain ⟨planId', limits, hdone⟩ := hreported.granted hupdate hdue
      have hold := h.unreported e rfl planId' limits hdone
      simp [hreports, Change.update] at hold

private theorem grant_fair {x : UserTables × Reports} {planId : SubscriptionPlanId}
    (hx : Updated q s x) (hdue : GrantDue q s)
    (hinstalled : ∀ y : UserTables × Reports, y.1.db.quotas.find? q.id = some ⟨q.id, some planId,
      (catalogEntry y.1.db.currentCatalog planId).quota⟩ → Installed q s y.1)
    (reply : SubscriptionReply) :
    (grantIf json true q.id planId >>= fun _ => pure reply).Wp (fun _ _ => True) effect
      (fun out y => AllOrNothing q s out y.1 ↔ Reported q s y.2) x := by
  refine (wp_bind _ _ _ _).mpr ((wp_bind _ _ _ _).mpr ((upsertQuota_grants q.id planId x).mono ?_))
  intro out y h
  have hfair := fair_granted hx hdue h (hinstalled y) reply
  cases out with
  | ok quota => exact hfair
  | error e => exact hfair

private theorem grants_fair {found : Account} (hfound : s.db.users.find? q.id = some found)
    {x : UserTables × Reports} (hx : Updated q s x) (reply : SubscriptionReply) :
    (grantIf json (decide (q.role = some Role.admin)) q.id .unlimited >>= fun _ =>
      grantIf json (decide (found.role = Role.admin ∧ q.role = some Role.user)) q.id
        (.managed .student) >>= fun _ => pure reply).Wp (fun _ _ => True) effect
      (fun out y => AllOrNothing q s out y.1 ↔ Reported q s y.2) x := by
  have hisAdmin : IsAdmin q.id s ↔ found.role = .admin := by
    constructor
    · intro h
      obtain ⟨a, ha, hrole⟩ := h
      rw [hfound] at ha
      cases ha
      exact hrole
    · intro h
      exact ⟨found, hfound, h⟩
  by_cases hadmin : q.role = some .admin
  · have hsecond : ¬ (found.role = Role.admin ∧ q.role = some Role.user) := by
      rw [hadmin]
      simp
    rw [decide_eq_true hadmin, decide_eq_false hsecond]
    apply grant_fair hx (.inl hadmin)
    intro y hq
    refine ⟨fun _ => hq, fun _ huser => ?_⟩
    rw [hadmin] at huser
    cases huser
  · rw [decide_eq_false hadmin]
    by_cases huser : found.role = Role.admin ∧ q.role = some Role.user
    · rw [decide_eq_true huser]
      apply grant_fair hx (.inr ⟨hisAdmin.mpr huser.1, huser.2⟩)
      intro y hq
      exact ⟨fun h => (hadmin h).elim, fun _ _ => hq⟩
    · rw [decide_eq_false huser]
      have hnone : ¬ GrantDue q s := by
        rintro (h | ⟨h, hrole⟩)
        · exact hadmin h
        · exact huser ⟨hisAdmin.mp h, hrole⟩
      obtain ⟨fate, hreports⟩ := hx.reports
      constructor
      · intro _
        refine ⟨?_, fun _ h => (hnone h).elim⟩
        simp [hreports, Change.update]
      · intro _
        exact ⟨fun h => (hadmin h).elim, fun h hrole => (hnone (.inr ⟨h, hrole⟩)).elim⟩

private theorem update_fair {found : Account} (hfound : s.db.users.find? q.id = some found)
    {x : UserTables × Reports} (hs : x.1 = s) {fate : Fate} (hlog : x.2 = [(.findUser q.id, fate)]) :
    (UserService.updateUser q.id q.role q.isActive >>= fun updated =>
      grantIf json (decide (q.role = some Role.admin)) q.id .unlimited >>= fun _ =>
        grantIf json (decide (found.role = Role.admin ∧ q.role = some Role.user)) q.id
          (.managed .student) >>= fun _ => pure (.account updated)).Wp (fun _ _ => True) effect
      (fun out y => AllOrNothing q s out y.1 ↔ Reported q s y.2) x := by
  refine (wp_bind _ _ _ _).mpr ⟨trivial, fun r y h => (wp_ofExcept _ _ _).mpr ?_⟩
  obtain ⟨fate', hfate, hreports⟩ := h
  rw [hlog] at hreports
  have hstamped : ∀ result, Carried q.update x.1 result y.1 →
      s.updatedAt q.id < y.1.updatedAt q.id := by
    intro result hcarried
    obtain ⟨now, hnow, hupdated⟩ := hcarried.stamped
    rw [hupdated, Function.update_self, ← hs]
    exact hnow
  cases fate' with
  | done =>
    obtain ⟨result, rfl, hcarried⟩ := hfate
    exact grants_fair hfound ⟨hstamped result hcarried, fate, hreports⟩ _
  | failed =>
    obtain ⟨⟨e, rfl⟩, hsame⟩ := hfate
    apply fair_untouched (hsame.trans hs)
    intro fate' hmem
    simpa [hreports, Change.update] using hmem
  | lost =>
    obtain ⟨⟨e, rfl⟩, result, hcarried⟩ := hfate
    apply unfair_written (Nat.ne_of_lt (hstamped result hcarried)).symm
    intro hreported
    apply hreported.kept
    rw [hreports]
    exact List.mem_append_right _ (List.mem_singleton.mpr rfl)

theorem handle_fair (json : PlanCatalogJson) (q : Change) (s : UserTables) :
    (q.handle json).Wp (fun _ _ => True) effect
      (fun out y => AllOrNothing q s out y.1 ↔ Reported q s y.2) (s, []) := by
  refine (wp_bind _ _ _ _).mpr ?_
  unfold assertAdminRole
  split
  · refine (wp_bind _ _ _ _).mpr ((wp_bind _ _ _ _).mpr
      ⟨trivial, fun r x h => (wp_ofExcept _ _ _).mpr ?_⟩)
    obtain ⟨hs, ⟨fate, hlog⟩, hr⟩ := findUser_same h
    have huntouched : ∀ e, AllOrNothing q s (.error e) x.1 ↔ Reported q s x.2 := by
      intro e
      apply fair_untouched hs
      intro fate' hmem
      simp [hlog, Change.update] at hmem
    rcases hr with rfl | ⟨e, rfl⟩
    · cases hfound : s.db.users.find? q.id with
      | none =>
        simp only [SubscriptionDb.lookup, hfound, Option.map_none]
        exact huntouched _
      | some found =>
        simp only [SubscriptionDb.lookup, hfound, Option.map_some]
        simp only [post_ok, Process.pure_def, wp_ret]
        split
        · exact huntouched _
        · split
          · exact huntouched _
          · exact update_fair hfound hs hlog
    · exact huntouched e
  · apply fair_untouched rfl
    intro fate hmem
    cases hmem

/-- A run of `adminUpdateUser` keeps all or nothing exactly when the user row is not written, or
it is reported as written and so is the quota, where one goes with the change of role. -/
theorem role_change_atomic_iff {json : PlanCatalogJson} {q : Change} {s t : UserTables}
    {out : Except Failure SubscriptionReply} {log : Reports}
    (h : (q.handle json).Ends effect (s, []) out (t, log)) :
    AllOrNothing q s out t ↔ Reported q s log :=
  (handle_fair json q s).ends h

end Change

section Sample

/-- An administrator makes the user `u` one as well. -/
private def promotion : Change := ⟨"u", some .admin, none, some .admin, some "a"⟩

private def start : UserTables := ⟨.sample, fun _ => 0⟩

private def promoted : UserTables :=
  ⟨SubscriptionDb.sample.putUser ⟨"u", .admin, true⟩, Function.update (fun _ => 0) "u" 1⟩

private theorem found_effect : effect (.findUser "u") (start, []) (.ok (SubscriptionDb.sample.lookup "u"))
    (start, [(.findUser "u", .done)]) :=
  ⟨.done, ⟨_, rfl, ⟨rfl, rfl⟩, rfl⟩, rfl⟩

private theorem promoted_effect (log : Reports) :
    effect promotion.update (start, log) (.ok ⟨"u", .admin, true⟩)
      (promoted, log ++ [(promotion.update, .done)]) :=
  ⟨.done, ⟨_, rfl, ⟨rfl, rfl⟩, 1, Nat.one_pos, rfl⟩, rfl⟩

private theorem failed_effect (c : SubscriptionCall) (x : UserTables × Reports) (e : Failure) :
    effect c x (.error e) (x.1, x.2 ++ [(c, .failed)]) :=
  ⟨.failed, ⟨⟨e, rfl⟩, rfl⟩, rfl⟩

private theorem plans_effect (log : Reports) :
    effect .findPlans (promoted, log) (.ok PlanConfigRow.samples)
      (promoted, log ++ [(.findPlans, .done)]) :=
  ⟨.done, ⟨_, rfl, ⟨PlanConfigRow.samples, .refl _, PlanConfigRow.samples_sorted, rfl, rfl⟩, rfl⟩, rfl⟩

private def unlimitedQuota : UserQuota := ⟨"u", some .unlimited, unlimitedPlanConfig.quota⟩

private theorem promoted_there : ∃ a ∈ promoted.db.users.rows, a.id = "u" := ⟨_, .head _, rfl⟩

private def entitled : UserTables :=
  ⟨promoted.db.putQuota unlimitedQuota promoted_there, promoted.updatedAt⟩

private theorem quota_effect (log : Reports) :
    effect (.upsertQuota "u" .unlimited unlimitedPlanConfig.quota) (promoted, log)
      (.ok unlimitedQuota)
      (entitled, log ++ [(.upsertQuota "u" .unlimited unlimitedPlanConfig.quota, .done)]) :=
  ⟨.done, ⟨_, rfl, .inl ⟨promoted_there, rfl, rfl⟩, rfl⟩, rfl⟩

/-- Every call is done: the user is an administrator with the unlimited quota. -/
theorem role_change_atomic_iff_promoted : ∃ out log,
    (promotion.handle .unset).Ends effect (start, []) out (entitled, log) ∧
      AllOrNothing promotion start out entitled := by
  have hends : (promotion.handle .unset).Ends effect (start, []) (.ok (.account ⟨"u", .admin, true⟩))
      (entitled, [(.findUser "u", .done), (promotion.update, .done), (.findPlans, .done),
        (.upsertQuota "u" .unlimited unlimitedPlanConfig.quota, .done)]) := by
    apply Ends.call (I := subscriptionInterface) found_effect
    apply Ends.call (I := subscriptionInterface) (promoted_effect _)
    apply Ends.call (I := subscriptionInterface) (plans_effect _)
    apply Ends.call (I := subscriptionInterface) (quota_effect _)
    exact ⟨rfl, rfl⟩
  refine ⟨_, _, hends, (role_change_atomic_iff hends).mpr ⟨by simp [Change.update], fun _ _ => ?_⟩⟩
  exact ⟨.unlimited, unlimitedPlanConfig.quota, by simp [promotion]⟩

/-- The catalog cannot be read: the user stays an administrator without a quota. -/
theorem promotion_without_quota :
    ¬ ∀ (json : PlanCatalogJson) (q : Change) (s t : UserTables)
      (out : Except Failure SubscriptionReply) (log : Reports),
      (q.handle json).Ends effect (s, []) out (t, log) → AllOrNothing q s out t := by
  intro h
  have hends : (promotion.handle .unset).Ends effect (start, []) (.error ⟨.connection, ""⟩)
      (promoted, [(.findUser "u", .done), (promotion.update, .done), (.findPlans, .failed)]) := by
    apply Ends.call (I := subscriptionInterface) found_effect
    apply Ends.call (I := subscriptionInterface) (promoted_effect _)
    apply Ends.call (I := subscriptionInterface) (failed_effect .findPlans _ ⟨.connection, ""⟩)
    exact ⟨rfl, rfl⟩
  have hbefore : AsBefore "u" start promoted := h _ _ _ _ _ _ hends
  have hrole := hbefore.user
  cases hrole

end Sample

end RoleChange

end CloudVM
