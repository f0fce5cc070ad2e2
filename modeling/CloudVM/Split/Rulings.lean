import CloudVM.Framework.Run
import CloudVM.Split.Members

/-!
# Whether an admin's decision stands

A push to `syncFromAuth` writes the role and the activity that the auth service has read. It undoes
an admin's decision if it still carries what the admin has replaced. That cannot happen if, when
the admin writes, no such copy is left: in the auth service's own table, in an operation that can
still push it, or on its way.
-/

namespace CloudVM.Split

open AuthStore AuthService UserService Process

section Clean

variable (G : Account → Prop)

def Pushes : MemberCall → Prop
  | .auth c => Pushed G c
  | .users (.upsertUser a) => G a
  | _ => True

def Reads : (c : MemberCall) → c.Answer → Prop
  | .auth c, r => Carried G c r
  | .setPassword _ _, r => ∀ u, r = .ok u → G (accountOf u)
  | _, _ => True

/-- As long as all it reads from now on is in `G`, so is all it pushes. -/
def Clean (p : MemberProcess Unit) : Prop := p.Within (Pushes G) (Reads G) fun _ => True

variable {G} {α : Type} (env : AuthEnv) (json : PlanCatalogJson)

private theorem clean_serving {p : MemberProcess α} (h : p.Within (Pushes G) (Reads G) fun _ => True) :
    Clean G (serving p) := within_bind h fun _ _ => trivial

private theorem within_ofAuth {p : AuthProcess α} {Q : α → Prop} (h : Carries G p Q) :
    (ofAuth p).Within (Pushes G) (Reads G) Q := h.lift (fun _ hc => hc) fun _ _ hr => hr

private theorem pushless_assertCurrentPassword (userId password : String) :
    (assertCurrentPassword env userId password).Only Pushless := by
  apply only_bind (pushless_apart (apart_findUserById _))
  intro found
  cases found with
  | none => trivial
  | some user =>
    simp only
    split
    · trivial
    · split <;> trivial

theorem clean_changePassword (userId oldPassword newPassword : String) :
    Clean G (serving (changePassword env userId oldPassword newPassword)) := by
  apply clean_serving
  apply within_bind
  · exact within_ofAuth (carries_pushless (pushless_assertCurrentPassword env userId oldPassword))
  · intro _ _
    refine ⟨?_, fun hashedPassword _ => ⟨trivial, fun r hread => ?_⟩⟩
    · intro u hu
      cases hu
    cases r with
    | error e => trivial
    | ok user =>
      apply within_bind (within_ofAuth (carries_syncUserProjection (hread user rfl)))
      intro _ _
      trivial

private def Own (c : SubscriptionCall) : Prop := ∀ a, c ≠ .upsertUser a

private theorem own_request {c : SubscriptionCall} (h : Own c) :
    (.call c .ofExcept : SubscriptionProcess c.Result).Only Own := ⟨h, fun _ => only_ofExcept _⟩

private theorem own_getPlanCatalog : (getPlanCatalog json).Only Own := by
  have hfind : findPlans.Only Own := own_request (by simp [Own])
  have hread : readPlans.Only Own := by
    apply only_tryCatch hfind
    intro e
    split
    · exact only_bind (own_request (by simp [Own])) fun _ => hfind
    · trivial
  apply only_bind hread
  intro rows
  split
  · apply only_bind (only_ofExcept _)
    intro seed
    apply only_bind (own_request (by simp [Own]))
    intro _
    apply only_bind hfind
    intro seededRows
    split
    · trivial
    · exact only_ofExcept _
  · exact only_ofExcept _

private theorem own_grantIf (needed : Bool) (userId : String) (planId : SubscriptionPlanId) :
    (grantIf json needed userId planId).Only Own := by
  have hquota : (upsertQuota json userId planId).Only Own :=
    only_bind (own_getPlanCatalog json) fun _ => own_request (by simp [Own])
  unfold grantIf
  split
  · exact only_bind hquota fun _ => trivial
  · trivial

private theorem own_adminUpdateUser (id : String) (role : Option Role) (isActive : Option Bool)
    (actorRole : Option Role) (actorUserId : Option String) :
    (adminUpdateUser json id role isActive actorRole actorUserId).Only Own := by
  have hadmin : (assertAdminRole actorRole).Only Own := by
    unfold assertAdminRole
    split <;> trivial
  have huser : (existingUser id).Only Own := by
    apply only_bind (own_request (by simp [Own]))
    intro found
    cases found <;> trivial
  apply only_bind hadmin
  intro _
  apply only_bind huser
  intro found
  split
  · trivial
  · split
    · trivial
    · apply only_bind (own_request (by simp [Own]))
      intro updated
      apply only_bind (own_grantIf json _ _ _)
      intro _
      apply only_bind (own_grantIf json _ _ _)
      intro _
      trivial

/-- What the user service takes over is in `G`. -/
private def Taken (c : SubscriptionCall) : Prop := ∀ a, c = .upsertUser a → G a

private theorem within_ofUsers {p : SubscriptionProcess α}
    (h : p.Within (Taken (G := G)) (fun _ _ => True) fun _ => True) :
    (ofUsers p).Within (Pushes G) (Reads G) fun _ => True := by
  apply h.lift
  · intro c hc
    cases c <;> first | trivial | exact hc _ rfl
  · intros
    trivial

private theorem taken_own {p : SubscriptionProcess α} (h : p.Only Own) :
    p.Within (Taken (G := G)) (fun _ _ => True) fun _ => True :=
  h.within fun _ hc a ha => (hc a ha).elim

theorem clean_adminUpdateUser (id : String) (role : Option Role) (isActive : Option Bool)
    (actorRole : Option Role) (actorUserId : Option String) :
    Clean G (serving (ofUsers (adminUpdateUser json id role isActive actorRole actorUserId))) :=
  clean_serving (within_ofUsers (taken_own (own_adminUpdateUser json id role isActive actorRole
    actorUserId)))

theorem clean_syncFromAuth {u : AuthUser} (h : G (accountOf u)) :
    Clean G (serving (ofUsers (syncFromAuth json u.id (some u.role) (some u.isActive)))) := by
  apply clean_serving
  apply within_ofUsers
  refine ⟨?_, fun r _ => ?_⟩
  · intro a ha
    cases ha
    exact h
  · cases r with
    | error e => trivial
    | ok account =>
      have hrest : (do
          grantIf json (some u.role = some .admin) u.id .unlimited
          pure (.account account) : SubscriptionProcess SubscriptionReply).Only Own :=
        only_bind (own_grantIf json _ _ _) fun _ => only_pure _
      exact taken_own hrest

end Clean

section Fields

/-- A field of an account that an admin may set. -/
structure Field (β : Type) where
  get : Account → β
  ruling : Ruling → Option (β × β)
  written : Option Role → Option Bool → Option β

def roleField : Field Role := ⟨Account.role, Ruling.role, fun role _ => role⟩

def activityField : Field Bool := ⟨Account.isActive, Ruling.isActive, fun _ isActive => isActive⟩

variable {β : Type}

def updated (role : Option Role) (isActive : Option Bool) (a : Account) : Account :=
  { a with role := role.getD a.role, isActive := isActive.getD a.isActive }

/-- An update writes the field and records what it replaces. -/
structure Field.Lawful (f : Field β) : Prop where
  none : f.ruling {} = none
  get : ∀ role isActive a, f.get (updated role isActive a) = (f.written role isActive).getD (f.get a)
  ruling : ∀ rulings old role isActive, f.ruling (Ruling.after rulings old role isActive old.id) =
    ((f.written role isActive).map (fun d => (f.get old, d)) <|> f.ruling (rulings old.id))

theorem roleField_lawful : roleField.Lawful where
  none := rfl
  get _ _ _ := rfl
  ruling rulings old role isActive := by simp [roleField, Ruling.after]

theorem activityField_lawful : activityField.Lawful where
  none := rfl
  get _ _ _ := rfl
  ruling rulings old role isActive := by simp [activityField, Ruling.after]

/-- Not the account `v` with the value `q`. -/
def Gone (f : Field β) (v : String) (q : β) (a : Account) : Prop := a.id = v → f.get a ≠ q

variable (shared : Bool) (f : Field β)

/-- The push of `a` puts back what an admin has replaced. -/
def UndoesIn (s : Members) (a : Account) : Prop :=
  ∃ row q, s.account shared a.id = some row ∧ f.ruling (s.rulings a.id) = some (q, f.get row) ∧
    q ≠ f.get row ∧ f.get a = q

/-- Every copy of an account is in `G`: in the auth service's own table, among the pushes on their
way, and in the operations under way. In a shared table the row is the one that is written. -/
structure Unheld (G : Account → Prop) (x : MemberPool) : Prop where
  rows : shared = false → ∀ u ∈ x.state.store.users.rows, G (accountOf u)
  sent : ∀ u ∈ x.state.sent, G (accountOf u)
  procs : ∀ p ∈ x.procs, Clean G p

/-- An admin who changes the field does so when nobody holds the value that is replaced. -/
def TimelyIn (x : MemberPool) (l : PoolLabel memberInterface) : Prop :=
  ∀ i userId role isActive r, l = .act i (MemberCall.users (.updateUser userId role isActive)) r →
    ∀ old d, x.state.account shared userId = some old → f.written role isActive = some d →
      d ≠ f.get old → Unheld shared (Gone f userId (f.get old)) x

/-- Nobody holds a value that an admin has replaced. -/
def Settled (x : MemberPool) : Prop :=
  ∀ v q d, f.ruling (x.state.rulings v) = some (q, d) → q ≠ d →
    (∀ u ∈ x.state.store.users.rows, Gone f v q (accountOf u)) ∧
    (∀ u ∈ x.state.sent, Gone f v q (accountOf u)) ∧ ∀ p ∈ x.procs, Clean (Gone f v q) p

end Fields

section Effects

variable {β : Type} {f : Field β} {shared : Bool} {s s' : Members} {v : String} {q d : β}

private theorem carried_of_mayServe (hf : f.Lawful) {c : AuthCall} {r : c.Answer} {store : AuthStore}
    (h : mayServe c s.store r store)
    (hnew : ∀ u ∈ store.users.rows, u.id ∉ s.store.users.rows.map AuthUser.id → s.rulings u.id = {})
    (hv : f.ruling (s.rulings v) = some (q, d))
    (hrows : ∀ u ∈ s.store.users.rows, Gone f v q (accountOf u)) :
    (∀ u ∈ store.users.rows, Gone f v q (accountOf u)) ∧ Carried (Gone f v q) c r := by
  have hstore : ∀ u ∈ store.users.rows, Gone f v q (accountOf u) := by
    intro u hu
    rcases users_of_mayServe h hu with ⟨u₀, hu₀, hid, hrole, hactive⟩ | ⟨d', id, -, rfl, hid⟩
    · have hsame : accountOf u = accountOf u₀ := by simp [accountOf, hid, hrole, hactive]
      rw [hsame]
      exact hrows u₀ hu₀
    · intro hidv
      obtain rfl : id = v := hidv
      have hnone := hnew _ hu hid
      have hid' : (d'.toUser id).id = id := rfl
      rw [hid'] at hnone
      rw [hnone, hf.none] at hv
      cases hv
  refine ⟨hstore, ?_⟩
  cases c
  case findUserByEmail email =>
    intro u hu
    subst hu
    exact hrows u (user_of_mayServe h).2
  case createUser data =>
    intro u hu
    subst hu
    exact hstore u (newUser_of_mayServe h).1
  case setGoogleId userId googleId =>
    intro u hu
    subst hu
    obtain ⟨u₀, hu₀, -, rfl⟩ := googleId_of_mayServe h
    exact hrows u₀ hu₀
  all_goals exact trivial

private theorem rows_editRow {G : Account → Prop} {userId : String} {g : AuthUser → AuthUser}
    {hid : ∀ u, (g u).id = u.id} {hsecret : ∀ u, (g u).mfaSecret = u.mfaSecret}
    (h : ∀ u ∈ s.store.users.rows, u.id ≠ userId → G (accountOf u))
    (hg : ∀ u ∈ s.store.users.rows, u.id = userId → G (accountOf (g u))) :
    ∀ u ∈ (s.editRow userId g hid hsecret).store.users.rows, G (accountOf u) := by
  intro u hu
  obtain ⟨u₀, hu₀, rfl⟩ := (Table.mem_modify _ _ _ hid _).mp hu
  by_cases he : u₀.id = userId
  · simpa [he] using hg u₀ hu₀ he
  · simpa [he] using h u₀ hu₀ he

/-- A push that is taken over leaves only what it writes or what was there. -/
private theorem rows_synced {G : Account → Prop} {a : Account} (h : Synced shared s a s')
    (hrows : ∀ u ∈ s.store.users.rows, G (accountOf u)) (ha : G a) :
    (∀ u ∈ s'.store.users.rows, G (accountOf u)) ∧ s'.sent = s.sent := by
  cases h with
  | own hs => exact ⟨hrows, rfl⟩
  | update hs email firstName lastName googleId mfaEnabled =>
    refine ⟨rows_editRow (fun u hu _ => hrows u hu) ?_, rfl⟩
    intro u _ hid
    have hsame : accountOf { u with
        email, firstName, lastName, googleId, mfaEnabled, role := a.role, isActive := a.isActive } =
          a := by simp [accountOf, hid]
    rw [hsame]
    exact ha
  | create hs hu hid hvalid =>
    refine ⟨?_, rfl⟩
    intro u' hu'
    rcases List.mem_append.mp hu' with hu' | hu'
    · exact hrows u' hu'
    · obtain rfl := List.mem_singleton.mp hu'
      rw [hu]
      exact ha

private theorem effect_keeps (hf : f.Lawful) {c : MemberCall} {r : c.Answer}
    (h : memberEffect shared c s r s') (hv : f.ruling (s.rulings v) = some (q, d))
    (hrows : ∀ u ∈ s.store.users.rows, Gone f v q (accountOf u))
    (hsent : ∀ u ∈ s.sent, Gone f v q (accountOf u)) (hpush : Pushes (Gone f v q) c)
    (hc : ∀ userId role isActive, c ≠ .users (.updateUser userId role isActive)) :
    (∀ u ∈ s'.store.users.rows, Gone f v q (accountOf u)) ∧
      (∀ u ∈ s'.sent, Gone f v q (accountOf u)) ∧ Reads (Gone f v q) c r := by
  cases c with
  | auth c =>
    cases c
    case syncUserProjection u =>
      rcases h with rfl | rfl
      · exact ⟨hrows, hsent, trivial⟩
      · refine ⟨hrows, ?_, trivial⟩
        intro u' hu'
        rcases List.mem_append.mp hu' with hu' | hu'
        · exact hsent u' hu'
        · obtain rfl := List.mem_singleton.mp hu'
          exact hpush u' rfl
    all_goals
      obtain ⟨store, hserve, rfl, hnew⟩ := h
      obtain ⟨hrows', hread⟩ := carried_of_mayServe hf hserve hnew hv hrows
      exact ⟨hrows', hsent, hread⟩
  | setPassword userId hashedPassword =>
    rcases h with ⟨e, rfl, rfl⟩ | ⟨u, hu, rfl, hr⟩
    · exact ⟨hrows, hsent, fun _ he => by cases he⟩
    · refine ⟨rows_editRow (fun u hu _ => hrows u hu) fun u hu _ => hrows u hu, hsent, ?_⟩
      intro u' hu'
      rcases hr with rfl | ⟨e, rfl⟩
      · cases hu'
        exact hrows u ((Table.find?_eq_some _).mp hu).1
      · cases hu'
  | users c =>
    cases c
    case updateUser userId role isActive => exact absurd rfl (hc userId role isActive)
    case findUser userId =>
      obtain ⟨rfl, -⟩ := h
      exact ⟨hrows, hsent, trivial⟩
    case upsertUser a =>
      rcases h with ⟨e, rfl, rfl⟩ | ⟨hsynced, -⟩
      · exact ⟨hrows, hsent, trivial⟩
      · obtain ⟨hrows', hsame⟩ := rows_synced hsynced hrows hpush
        rw [hsame]
        exact ⟨hrows', hsent, trivial⟩
    all_goals
      obtain rfl := h
      exact ⟨hrows, hsent, trivial⟩

private theorem effect_rulings {c : MemberCall} {r : c.Answer} (h : memberEffect shared c s r s')
    (hc : ∀ userId role isActive, c ≠ .users (.updateUser userId role isActive)) :
    s'.rulings = s.rulings := by
  cases c with
  | auth c =>
    cases c
    case syncUserProjection u => rcases h with rfl | rfl <;> rfl
    all_goals
      obtain ⟨store, -, rfl, -⟩ := h
      rfl
  | setPassword userId hashedPassword => rcases h with ⟨e, -, rfl⟩ | ⟨u, -, rfl, -⟩ <;> rfl
  | users c =>
    cases c
    case updateUser userId role isActive => exact absurd rfl (hc userId role isActive)
    case findUser userId =>
      obtain ⟨rfl, -⟩ := h
      rfl
    case upsertUser a =>
      rcases h with ⟨e, -, rfl⟩ | ⟨hsynced, -⟩
      · rfl
      · cases hsynced <;> rfl
    all_goals
      obtain rfl := h
      rfl

private theorem account_id {userId : String} {a : Account} (h : s.account shared userId = some a) :
    a.id = userId := by
  unfold Members.account at h
  split at h
  · obtain ⟨u, hu, rfl⟩ := Option.map_eq_some_iff.mp h
    exact ((Table.find?_eq_some _).mp hu).2
  · exact ((Table.find?_eq_some _).mp h).2

private theorem rule_rulings (old : Account) (role : Option Role) (isActive : Option Bool) :
    (s.rule shared old role isActive).rulings = Ruling.after s.rulings old role isActive := by
  unfold Members.rule
  split <;> rfl

private theorem rule_sent (old : Account) (role : Option Role) (isActive : Option Bool) :
    (s.rule shared old role isActive).sent = s.sent := by
  unfold Members.rule
  split <;> rfl

/-- The rows of the auth service after an admin's update: in a shared table the one of the account
is updated. -/
private theorem rows_rule {G : Account → Prop} {old : Account} {role : Option Role}
    {isActive : Option Bool} (h : shared = false → ∀ u ∈ s.store.users.rows, G (accountOf u))
    (hother : shared = true → ∀ u ∈ s.store.users.rows, u.id ≠ old.id → G (accountOf u))
    (hself : shared = true → ∀ u ∈ s.store.users.rows, u.id = old.id →
      G (updated role isActive (accountOf u))) :
    ∀ u ∈ (s.rule shared old role isActive).store.users.rows, G (accountOf u) := by
  cases shared with
  | false => exact h rfl
  | true => exact rows_editRow (hother rfl) (hself rfl)

end Effects

section Steps

variable {β : Type} {f : Field β} {shared : Bool} {env : AuthEnv} {json : PlanCatalogJson}
  {x y : MemberPool} {l : PoolLabel memberInterface}

private theorem start_clean {G : Account → Prop} {s s' : Members} {p : MemberProcess Unit}
    (h : MemberStarts env json s p s') (hsent : ∀ u ∈ s.sent, G (accountOf u)) : Clean G p := by
  cases h with
  | auth q => exact clean_serving (within_ofAuth (carries_handle env q))
  | changePassword userId oldPassword newPassword =>
    exact clean_changePassword env userId oldPassword newPassword
  | adminUpdateUser id role isActive actorRole actorUserId =>
    exact clean_adminUpdateUser json id role isActive actorRole actorUserId
  | syncFromAuth hu => exact clean_syncFromAuth json (hsent _ hu)

private theorem start_same {s s' : Members} {p : MemberProcess Unit}
    (h : MemberStarts env json s p s') :
    s'.store = s.store ∧ s'.rulings = s.rulings ∧ ∀ u ∈ s'.sent, u ∈ s.sent := by
  cases h with
  | auth | changePassword | adminUpdateUser => exact ⟨rfl, rfl, fun _ hu => hu⟩
  | syncFromAuth hu => exact ⟨rfl, rfl, fun _ hu => List.mem_of_mem_erase hu⟩

private theorem shift_same {s s' : Members} (h : MemberShifts s s') :
    s'.store.users = s.store.users ∧ s'.rulings = s.rulings ∧ ∀ u ∈ s'.sent, u ∈ s.sent := by
  cases h with
  | passes hp hu => exact ⟨hu, rfl, fun _ hu => hu⟩
  | lost u => exact ⟨rfl, rfl, fun _ hu => List.mem_of_mem_erase hu⟩

private theorem clean_set {G : Account → Prop} {procs : List (MemberProcess Unit)} {i : Nat}
    {c : MemberCall} {k : c.Answer → MemberProcess Unit} {r : c.Answer}
    (h : ∀ p ∈ procs, Clean G p) (hp : procs[i]? = some (.call c k)) (hread : Reads G c r) :
    ∀ p ∈ procs.set i (k r), Clean G p := by
  intro p hm
  rcases List.mem_or_eq_of_mem_set hm with hm | rfl
  · exact h p hm
  · exact (h _ (List.mem_of_getElem? hp)).2 r hread

private theorem settled_rule (hf : f.Lawful) {s : Members} {procs : List (MemberProcess Unit)}
    {i : Nat} {userId : String} {role : Option Role} {isActive : Option Bool} {old : Account}
    {k : Except Failure Account → MemberProcess Unit} {r : Except Failure Account}
    (hx : Settled f ⟨s, procs⟩)
    (hp : procs[i]? = some (.call (MemberCall.users (.updateUser userId role isActive)) k))
    (hold : s.account shared userId = some old)
    (ht : ∀ d, f.written role isActive = some d → d ≠ f.get old →
      Unheld shared (Gone f userId (f.get old)) ⟨s, procs⟩) :
    Settled f ⟨s.rule shared old role isActive, procs.set i (k r)⟩ := by
  have hid := account_id hold
  subst hid
  intro v q d hv hqd
  simp only [rule_rulings, rule_sent] at hv ⊢
  by_cases hvid : v = old.id
  · subst hvid
    rw [hf.ruling] at hv
    cases hw : f.written role isActive with
    | some d' =>
      obtain ⟨rfl, rfl⟩ : f.get old = q ∧ d' = d := by simpa [hw] using hv
      have hun := ht d' hw hqd.symm
      refine ⟨rows_rule hun.rows ?_ ?_, hun.sent, clean_set hun.procs hp trivial⟩
      · intro _ u _ hne hid
        exact absurd hid hne
      · intro _ u _ _ _
        rw [hf.get, hw]
        exact hqd.symm
    | none =>
      have hv' : f.ruling (s.rulings old.id) = some (q, d) := by simpa [hw] using hv
      obtain ⟨hrows, hsent, hprocs⟩ := hx old.id q d hv' hqd
      refine ⟨rows_rule (fun _ => hrows) (fun _ u hu _ => hrows u hu) ?_, hsent,
        clean_set hprocs hp trivial⟩
      intro _ u hu _ hid
      rw [hf.get, hw]
      exact hrows u hu hid
  · have hsame : Ruling.after s.rulings old role isActive v = s.rulings v := if_neg hvid
    rw [hsame] at hv
    obtain ⟨hrows, hsent, hprocs⟩ := hx v q d hv hqd
    refine ⟨rows_rule (fun _ => hrows) (fun _ u hu _ => hrows u hu) ?_, hsent,
      clean_set hprocs hp trivial⟩
    intro _ u _ hid hidv
    exact absurd (hidv.symm.trans hid) hvid

private theorem settled_step (hf : f.Lawful) (hx : Settled f x)
    (h : Pool.Step (bothServices shared env json) x l y) (ht : TimelyIn shared f x l) :
    Settled f y := by
  cases h with
  | @act s s' procs i c k r hp he =>
    by_cases hc : ∃ userId role isActive, c = MemberCall.users (.updateUser userId role isActive)
    · obtain ⟨userId, role, isActive, rfl⟩ := hc
      rcases he with ⟨e, rfl, rfl⟩ | ⟨old, hold, rfl, -⟩
      · intro v q d hv hqd
        obtain ⟨hrows, hsent, hprocs⟩ := hx v q d hv hqd
        exact ⟨hrows, hsent, clean_set hprocs hp trivial⟩
      · apply settled_rule hf hx hp hold
        intro d hw hd
        exact ht i userId role isActive r rfl old d hold hw hd
    · have hc' : ∀ userId role isActive, c ≠ MemberCall.users (.updateUser userId role isActive) :=
        fun userId role isActive heq => hc ⟨userId, role, isActive, heq⟩
      intro v q d hv hqd
      rw [effect_rulings he hc'] at hv
      obtain ⟨hrows, hsent, hprocs⟩ := hx v q d hv hqd
      have hpush := (hprocs _ (List.mem_of_getElem? hp)).1
      obtain ⟨hrows', hsent', hread⟩ := effect_keeps hf he hv hrows hsent hpush hc'
      exact ⟨hrows', hsent', clean_set hprocs hp hread⟩
  | @start s s' procs p hs =>
    obtain ⟨hstore, hrulings, hsub⟩ := start_same hs
    intro v q d hv hqd
    rw [hrulings] at hv
    obtain ⟨hrows, hsent, hprocs⟩ := hx v q d hv hqd
    refine ⟨?_, fun u hu => hsent u (hsub u hu), ?_⟩
    · rw [hstore]
      exact hrows
    · intro p' hp'
      rcases List.mem_append.mp hp' with hp' | hp'
      · exact hprocs p' hp'
      · obtain rfl := List.mem_singleton.mp hp'
        exact start_clean hs hsent
  | crash i =>
    intro v q d hv hqd
    obtain ⟨hrows, hsent, hprocs⟩ := hx v q d hv hqd
    exact ⟨hrows, hsent, fun p hp => hprocs p (List.mem_of_mem_eraseIdx hp)⟩
  | surroundings hs =>
    obtain ⟨husers, hrulings, hsub⟩ := shift_same hs
    intro v q d hv hqd
    rw [hrulings] at hv
    obtain ⟨hrows, hsent, hprocs⟩ := hx v q d hv hqd
    refine ⟨?_, fun u hu => hsent u (hsub u hu), hprocs⟩
    rw [husers]
    exact hrows

private theorem settled_stands {i : Nat} {a : Account} {r : Except Failure Account}
    (hx : Settled f x)
    (h : Pool.Step (bothServices shared env json) x
      (.act i (MemberCall.users (.upsertUser a)) r) y) : ¬ UndoesIn shared f x.state a := by
  rintro ⟨row, q, -, hruling, hne, ha⟩
  obtain ⟨k, hp, -, -⟩ := h.act_inv
  obtain ⟨-, -, hprocs⟩ := hx a.id q (f.get row) hruling hne
  exact (hprocs _ (List.mem_of_getElem? hp)).1 rfl ha

end Steps

section Runs

variable (shared : Bool)

/-- The step takes over a push that undoes an admin's decision. -/
def Undoes (x : MemberPool) (l : PoolLabel memberInterface) : Prop :=
  ∃ i a r, l = .act i (MemberCall.users (.upsertUser a)) r ∧
    (UndoesIn shared roleField x.state a ∨ UndoesIn shared activityField x.state a)

/-- A step in which an admin changes a field only when nobody holds the value that is replaced. -/
def TimelyStep (env : AuthEnv) (json : PlanCatalogJson) (x : MemberPool)
    (l : PoolLabel memberInterface) (y : MemberPool) : Prop :=
  Pool.Step (bothServices shared env json) x l y ∧
    TimelyIn shared roleField x l ∧ TimelyIn shared activityField x l

/-- In every run of timely steps, over one database or two, no push undoes a decision. -/
theorem decisions_stand (env : AuthEnv) (json : PlanCatalogJson) (s : Members)
    (hnew : ∀ v, s.rulings v = {}) {trace : List (PoolLabel memberInterface × MemberPool)}
    {x y : MemberPool} {l : PoolLabel memberInterface}
    (h : Run (TimelyStep shared env json) ⟨s, []⟩ trace x)
    (hs : Pool.Step (bothServices shared env json) x l y) : ¬ Undoes shared x l := by
  have hinit : ∀ {β : Type} (f : Field β), f.Lawful → Settled f ⟨s, []⟩ := by
    intro β f hf v q d hv
    simp only [hnew, hf.none] at hv
    cases hv
  have hrole : Settled roleField x :=
    h.invariant (hinit _ roleField_lawful) fun _ _ _ hx hstep =>
      settled_step roleField_lawful hx hstep.1 hstep.2.1
  have hactivity : Settled activityField x :=
    h.invariant (hinit _ activityField_lawful) fun _ _ _ hx hstep =>
      settled_step activityField_lawful hx hstep.1 hstep.2.2
  rintro ⟨i, a, r, rfl, hundoes | hundoes⟩
  · exact settled_stands hrole hs hundoes
  · exact settled_stands hactivity hs hundoes

end Runs

section Sample

private def member : AuthUser :=
  { id := "u", email := "a@b.c", password := "hash of pw", firstName := "A", lastName := "B" }

private theorem member_valid : ∀ u ∈ [member], u.Valid := by simp [member, AuthUser.Valid]

private def memberStart : Members where
  store := .initial ⟨[member], by simp⟩ member_valid 100
  users := ⟨[accountOf member], by simp⟩
  sent := []
  rulings := fun _ => {}

private def memberLogin : AuthRequest × RequestInfo :=
  (.login { email := "a@b.c", password := "pw" }, ⟨"f", "1.2.3.4", "agent", none⟩)

variable {shared : Bool} {s : Members} {procs : List (MemberProcess Unit)}

private theorem auth_act (i : Nat) (c : AuthCall) (r : c.Answer) {store : AuthStore}
    {k : c.Answer → MemberProcess Unit} (hp : procs[i]? = some (.call (MemberCall.auth c) k))
    (hc : Pushless c) (he : serve c s.store r store) (hu : store.users = s.store.users) :
    Pool.Step (bothServices shared .sample .unset) ⟨s, procs⟩ (.act i (MemberCall.auth c) r)
      ⟨{ s with store }, procs.set i (k r)⟩ := by
  have hnew : ∀ u ∈ store.users.rows, u.id ∉ s.store.users.rows.map AuthUser.id →
      s.rulings u.id = {} := by
    intro u hm hid
    rw [hu] at hm
    exact absurd (List.mem_map_of_mem hm) hid
  apply Pool.Step.act (E := bothServices shared .sample .unset) hp
  cases c
  case syncUserProjection u => exact absurd rfl (hc u)
  all_goals exact ⟨store, .inl he, rfl, hnew⟩

private theorem find_act (i : Nat) {a : Account} {k : _ → MemberProcess Unit}
    (hp : procs[i]? = some (.call (MemberCall.users (.findUser "u")) k))
    (ha : s.account shared "u" = some a) :
    Pool.Step (bothServices shared .sample .unset) ⟨s, procs⟩
      (.act i (MemberCall.users (.findUser "u")) (.ok (some (a, none))))
      ⟨s, procs.set i (k (.ok (some (a, none))))⟩ := by
  apply Pool.Step.act (E := bothServices shared .sample .unset) hp
  exact ⟨rfl, .inl ⟨none, by simp [ha]⟩⟩

private theorem rule_act (i : Nat) (role : Option Role) (isActive : Option Bool) {a : Account}
    {k : _ → MemberProcess Unit}
    (hp : procs[i]? = some (.call (MemberCall.users (.updateUser "u" role isActive)) k))
    (ha : s.account shared "u" = some a) :
    Pool.Step (bothServices shared .sample .unset) ⟨s, procs⟩
      (.act i (MemberCall.users (.updateUser "u" role isActive)) (.ok (updated role isActive a)))
      ⟨s.rule shared a role isActive, procs.set i (k (.ok (updated role isActive a)))⟩ := by
  apply Pool.Step.act (E := bothServices shared .sample .unset) hp
  exact .inr ⟨a, ha, rfl, .inl rfl⟩

private theorem push_act (i : Nat) (u : AuthUser) {k : _ → MemberProcess Unit}
    (hp : procs[i]? = some (.call (MemberCall.auth (.syncUserProjection u)) k)) :
    Pool.Step (bothServices shared .sample .unset) ⟨s, procs⟩
      (.act i (MemberCall.auth (.syncUserProjection u)) (.ok ()))
      ⟨{ s with sent := s.sent ++ [u] }, procs.set i (k (.ok ()))⟩ :=
  .act (E := bothServices shared .sample .unset) hp (.inr rfl)

private theorem member_account (shared : Bool) {s : Members}
    (hstore : s.store.users = memberStart.store.users) (husers : s.users = memberStart.users) :
    s.account shared "u" = some (accountOf member) := by
  cases shared
  · simp only [Members.account, husers]
    rfl
  · simp only [Members.account, hstore]
    rfl

private theorem exists_synced (shared : Bool) (s : Members) (a : Account) :
    ∃ s', Synced shared s a s' := by
  cases shared
  · exact ⟨_, .own rfl⟩
  · exact ⟨_, .update rfl "a@b.c" "A" "B" none false⟩

private theorem rule_account (shared : Bool) {s : Members}
    (hstore : s.store.users = memberStart.store.users) (husers : s.users = memberStart.users) :
    (s.rule shared (accountOf member) none (some false)).account shared "u" =
      some (updated none (some false) (accountOf member)) := by
  cases shared
  · simp only [Members.rule, Members.account, husers]
    rfl
  · simp only [Members.rule, Members.account, Members.editRow, modifyUser, hstore]
    rfl

private theorem undone_run (shared : Bool) :
    Reaches (Pool.Step (bothServices shared .sample .unset)) ⟨memberStart, []⟩ fun x =>
      ∃ l y, Pool.Step (bothServices shared .sample .unset) x l y ∧ Undoes shared x l := by
  apply Reaches.next (.start (.auth memberLogin))
  apply Reaches.next (auth_act 0 .redisConnect (.ok ()) rfl (by simp [Pushless]) ⟨rfl, rfl⟩ rfl)
  apply Reaches.next (auth_act 0 (.redisTtl (.lock "a@b.c")) (.ok 0) rfl (by simp [Pushless])
    ⟨⟨0, rfl, by simp⟩, rfl⟩ rfl)
  apply Reaches.next (auth_act 0 (.findUserByEmail "a@b.c") (.ok (some member)) rfl
    (by simp [Pushless]) ⟨rfl, rfl⟩ rfl)
  apply Reaches.next (auth_act 0 .redisConnect (.ok ()) rfl (by simp [Pushless]) ⟨rfl, rfl⟩ rfl)
  apply Reaches.next (auth_act 0 (.redisDel [.fail "a@b.c", .lock "a@b.c"]) (.ok ()) rfl
    (by simp [Pushless]) ⟨rfl, rfl⟩ rfl)
  apply Reaches.next (.start (.adminUpdateUser "u" none (some false) (some .admin) (some "root")))
  apply Reaches.next (find_act 1 rfl (member_account shared (by rfl) (by rfl)))
  apply Reaches.next (rule_act 1 none (some false) rfl (member_account shared (by rfl) (by rfl)))
  apply Reaches.next (push_act 0 member rfl)
  apply Reaches.next (.start (.syncFromAuth (u := member) (List.mem_append_right _ (by simp))))
  apply Reaches.here
  obtain ⟨s', hs'⟩ := exists_synced shared _ (accountOf member)
  refine ⟨_, _, .act (E := bothServices shared .sample .unset) (i := 2)
    (c := MemberCall.users (.upsertUser (accountOf member))) (r := .ok (accountOf member)) rfl
    (.inr ⟨hs', .inl rfl⟩), 2, accountOf member, _, rfl, .inr ?_⟩
  refine ⟨updated none (some false) (accountOf member), true, rule_account shared (by rfl) (by rfl), ?_, ?_, rfl⟩
  · simp only [rule_rulings]
    rfl
  · decide

/-- A login takes a deactivation back, over two databases and over one. -/
theorem login_undoes_deactivation :
    (¬ ∀ (env : AuthEnv) (json : PlanCatalogJson) (s : Members), (∀ v, s.rulings v = {}) →
      ∀ (trace : List (PoolLabel memberInterface × MemberPool)) (x y : MemberPool)
        (l : PoolLabel memberInterface), Run (Pool.Step (bothServices false env json)) ⟨s, []⟩ trace x →
        Pool.Step (bothServices false env json) x l y → ¬ Undoes false x l) ∧
    ¬ ∀ (env : AuthEnv) (json : PlanCatalogJson) (s : Members), (∀ v, s.rulings v = {}) →
      ∀ (trace : List (PoolLabel memberInterface × MemberPool)) (x y : MemberPool)
        (l : PoolLabel memberInterface), Run (Pool.Step (bothServices true env json)) ⟨s, []⟩ trace x →
        Pool.Step (bothServices true env json) x l y → ¬ Undoes true x l := by
  constructor
  · intro h
    obtain ⟨trace, x, hrun, l, y, hstep, hundoes⟩ := undone_run false
    exact h .sample .unset memberStart (fun _ => rfl) trace x y l hrun hstep hundoes
  · intro h
    obtain ⟨trace, x, hrun, l, y, hstep, hundoes⟩ := undone_run true
    exact h .sample .unset memberStart (fun _ => rfl) trace x y l hrun hstep hundoes

private theorem timely_other {x y : MemberPool} {l : PoolLabel memberInterface}
    (h : Pool.Step (bothServices shared .sample .unset) x l y)
    (hl : ∀ i userId role isActive r,
      l ≠ .act i (MemberCall.users (.updateUser userId role isActive)) r) :
    TimelyStep shared .sample .unset x l y :=
  ⟨h, fun i userId role isActive r heq => absurd heq (hl i userId role isActive r),
    fun i userId role isActive r heq => absurd heq (hl i userId role isActive r)⟩

private def promote : MemberProcess Unit :=
  serving (ofUsers (adminUpdateUser .unset "u" (some .admin) none (some .admin) (some "root")))

private theorem timely_promote {k : _ → MemberProcess Unit}
    (hp : promote = .call (MemberCall.users (.findUser "u")) k) {k' : _ → MemberProcess Unit}
    (hp' : k (.ok (some (accountOf member, none))) =
      .call (MemberCall.users (.updateUser "u" (some .admin) none)) k') :
    TimelyStep true .sample .unset ⟨memberStart, [k (.ok (some (accountOf member, none)))]⟩
      (.act 0 (MemberCall.users (.updateUser "u" (some .admin) none))
        (.ok (updated (some .admin) none (accountOf member))))
      ⟨memberStart.rule true (accountOf member) (some .admin) none,
        [k' (.ok (updated (some .admin) none (accountOf member)))]⟩ := by
  have hclean : ∀ G, Clean G (k (.ok (some (accountOf member, none)))) := by
    intro G
    have hpromote : Clean G promote := clean_adminUpdateUser .unset _ _ _ _ _
    rw [hp] at hpromote
    exact hpromote.2 _ trivial
  have hunheld : ∀ G, Unheld true G ⟨memberStart, [k (.ok (some (accountOf member, none)))]⟩ := by
    intro G
    constructor
    · simp
    · simp [memberStart]
    · simpa using hclean G
  constructor
  · exact rule_act 0 (some .admin) none (by simp [hp']) (member_account true rfl rfl)
  · constructor
    · intro i userId role isActive r heq old d hold hw hd
      cases heq
      exact hunheld _
    · intro i userId role isActive r heq old d hold hw
      cases heq
      cases hw

private def promoted : AuthUser := { member with role := .admin }

/-- An admin promotes an account; its owner logs in, and the push keeps the promotion. -/
theorem decisions_stand_promotion : ∃ x y : MemberPool, ∃ l : PoolLabel memberInterface,
    Pool.Step (bothServices true .sample .unset) x l y ∧ ¬ Undoes true x l ∧
      ∃ i a r, l = .act i (MemberCall.users (.upsertUser a)) r ∧ a.role = .admin := by
  have hruns : Reaches (TimelyStep true .sample .unset) ⟨memberStart, []⟩ fun x =>
      ∃ y, Pool.Step (bothServices true .sample .unset) x
        (.act 2 (MemberCall.users (.upsertUser (accountOf promoted))) (.ok (accountOf promoted))) y := by
    apply Reaches.next (timely_other (.start (.adminUpdateUser "u" (some .admin) none (some .admin)
      (some "root"))) (by simp))
    apply Reaches.next (timely_other (find_act 0 rfl (member_account true (by rfl) (by rfl)))
      (by simp))
    apply Reaches.next (timely_promote rfl rfl)
    apply Reaches.next (timely_other (.start (.auth memberLogin)) (by simp))
    apply Reaches.next (timely_other (auth_act 1 .redisConnect (.ok ()) rfl (by simp [Pushless])
      ⟨rfl, rfl⟩ rfl) (by simp))
    apply Reaches.next (timely_other (auth_act 1 (.redisTtl (.lock "a@b.c")) (.ok 0) rfl
      (by simp [Pushless]) ⟨⟨0, rfl, by simp⟩, rfl⟩ rfl) (by simp))
    apply Reaches.next (timely_other (auth_act 1 (.findUserByEmail "a@b.c") (.ok (some promoted)) rfl
      (by simp [Pushless]) ⟨rfl, rfl⟩ rfl) (by simp))
    apply Reaches.next (timely_other (auth_act 1 .redisConnect (.ok ()) rfl (by simp [Pushless])
      ⟨rfl, rfl⟩ rfl) (by simp))
    apply Reaches.next (timely_other (auth_act 1 (.redisDel [.fail "a@b.c", .lock "a@b.c"]) (.ok ())
      rfl (by simp [Pushless]) ⟨rfl, rfl⟩ rfl) (by simp))
    apply Reaches.next (timely_other (push_act 1 promoted rfl) (by simp))
    apply Reaches.next (timely_other (.start (.syncFromAuth (u := promoted)
      (List.mem_append_right _ (by simp)))) (by simp))
    apply Reaches.here
    obtain ⟨s', hs'⟩ := exists_synced true _ (accountOf promoted)
    exact ⟨_, .act (E := bothServices true .sample .unset) rfl (.inr ⟨hs', .inl rfl⟩)⟩
  obtain ⟨trace, x, hrun, y, hstep⟩ := hruns
  exact ⟨x, y, _, hstep, decisions_stand true .sample .unset memberStart (fun _ => rfl) hrun hstep,
    _, _, _, rfl, rfl⟩

end Sample

end CloudVM.Split
