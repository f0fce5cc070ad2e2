import CloudVM.Students.Store

/-!
# Verified students and their addresses

Only the deletion of a university looks whether a verified student needs its domain. Requests in
any order, their calls interleaved, leave every verified user with an address of a registered
university as long as no request confirms an address, moves a verified user or changes a domain
where that check would have stopped it, and nothing comes between the check of a deletion and its
delete.
-/

namespace CloudVM.Students

open Process

section Covered

variable (env : Env)

/-- The address belongs to a registered university, active or not. -/
def StudentDb.Covers (s : StudentDb) (email : String) : Prop :=
  ∃ v ∈ s.universities.rows, endsWithDomain env email v.emailDomain

def Enrolled (s : StudentDb) : Prop :=
  ∀ u ∈ s.users.rows, u.studentEmailVerified → s.Covers env u.email

/-- A deletion of the university is under way and has found that nobody uses the domain. -/
def Cleared (x : StudentStage) (id emailDomain : String) : Prop :=
  ∃ task ∈ x.tasks, task.Live ∧ (∃ adminId, task.request = .deleteUniversity id adminId) ∧
    ⟨.findVerifiedStudent emailDomain, .ok none⟩ ∈ task.log

/-- The university covers the address, and no deletion under way relies on the contrary. -/
def University.Holds (v : University) (x : StudentStage) (email : String) : Prop :=
  v ∈ x.state.universities.rows ∧ endsWithDomain env email v.emailDomain ∧
    ¬ Cleared x v.id v.emailDomain

/-- The domain that an update writes, with the university as it has read it. -/
def UpdateUniversityDto.newDomain (dto : UpdateUniversityDto) (v : University) : String :=
  match dto.emailDomain with
  | some domain => Text.jsTrim domain
  | none => v.emailDomain

/-- What a request must meet where it writes: an address that it confirms or gives to a verified
user is covered; a university that it changes still has its domain afterwards, or every verified
user is covered by the new one or elsewhere; one that it deletes has the domain it was read with. -/
def Request.Meets (x : StudentStage) (log : List (Event interface)) : Request → Prop
  | .confirmVerification userId _ =>
      ∀ u ∈ x.state.users.rows, u.id = userId → ∃ v, University.Holds env v x u.email
  | .updateProfile userId dto =>
      ∀ u ∈ x.state.users.rows, u.id = userId → u.studentEmailVerified →
        ∀ email ∈ dto.email, ∃ v, University.Holds env v x email
  | .syncFromAuth payload =>
      ∀ u ∈ x.state.users.rows, u.id = payload.id → u.studentEmailVerified →
        ∃ v, University.Holds env v x payload.email
  | .updateUniversity id dto _ =>
      ∀ v, ⟨.findUniversity id, .ok (some v)⟩ ∈ log →
        (∀ w ∈ x.state.universities.rows, w.id = id → w.emailDomain = dto.newDomain v) ∨
        ∀ u ∈ x.state.users.rows, u.studentEmailVerified →
          (endsWithDomain env u.email (dto.newDomain v) ∧ ¬ Cleared x id (dto.newDomain v)) ∨
          ∃ w, w.id ≠ id ∧ University.Holds env w x u.email
  | .deleteUniversity id _ =>
      ∀ v, ⟨.findUniversity id, .ok (some v)⟩ ∈ log →
        ∀ w ∈ x.state.universities.rows, w.id = id → w.emailDomain = v.emailDomain
  | _ => True

def Call.Writes : Call → Prop
  | .verifyUser _ _ => True
  | .updateUser _ _ => True
  | .upsertUser _ => True
  | .updateUniversity _ _ _ => True
  | .deleteUniversity _ => True
  | _ => False

/-- Requests that write meet their condition in the state before. -/
def Meets (x : StudentStage) : StudentLabel → Prop
  | .act i c _ => c.Writes → ∀ task, x.tasks[i]? = some task → task.request.Meets env x task.log
  | _ => True

end Covered

section Handlers

variable {env : Env} {α : Type}

/-- The writes that each request may make, with what it has read before them. -/
def Permitted (q : Request) (log : List (Event interface)) : Call → Prop
  | .verifyUser userId _ => ∃ code, q = .confirmVerification userId code
  | .updateUser userId data => q = .updateProfile userId data
  | .upsertUser payload => q = .syncFromAuth payload
  | .updateUniversity id _ emailDomain => ∃ dto adminId v, q = .updateUniversity id dto adminId ∧
      ⟨.findUniversity id, .ok (some v)⟩ ∈ log ∧ emailDomain = dto.newDomain v
  | .deleteUniversity id => ∃ adminId v, q = .deleteUniversity id adminId ∧
      ⟨.findUniversity id, .ok (some v)⟩ ∈ log ∧
      ⟨.findVerifiedStudent v.emailDomain, .ok none⟩ ∈ log
  | _ => True

variable {q : Request}

private theorem free_wp {p : StudentProcess α} (h : p.Only fun c => ∀ log, Permitted q log c)
    (log : List (Event interface)) :
    p.Wp (Permitted q) (logged fun _ _ => True) (fun _ _ => True) log :=
  h.keeps (J := fun _ => True) (fun log _ hc => hc log) (fun _ _ _ _ _ _ _ => trivial) log trivial

private theorem free_assertAdminUser (adminId : String) :
    (assertAdminUser adminId).Only fun c => ∀ log, Permitted q log c := by
  apply only_bind (only_request fun _ => trivial)
  intro admin
  split <;> trivial

private theorem free_existingUniversity (id : String) :
    (existingUniversity id).Only fun c => ∀ log, Permitted q log c := by
  apply only_bind (only_request fun _ => trivial)
  intro found
  cases found <;> trivial

private theorem existingUniversity_wp (id : String) (log : List (Event interface)) :
    (existingUniversity id).Wp (Permitted q) (logged fun _ _ => True)
      (Post (fun v log' => ⟨.findUniversity id, .ok (some v)⟩ ∈ log') fun _ _ => True) log := by
  refine ⟨trivial, ?_⟩
  rintro r t ⟨-, rfl⟩
  cases r with
  | error e => trivial
  | ok found =>
    cases found with
    | none => trivial
    | some v => exact List.mem_append_right _ (List.mem_singleton_self _)

private theorem request_free (userId : String) :
    (requestStudentEmailVerification env userId).Only fun c => ∀ log, Permitted q log c := by
  apply only_bind (only_request fun _ => trivial)
  intro found
  cases found with
  | none => trivial
  | some user =>
    apply only_bind
    · exact only_bind (only_request fun _ => trivial) fun _ => trivial
    · intro isStudent
      split
      · split
        · trivial
        · refine ⟨fun _ => trivial, fun code => ⟨fun _ => trivial, fun t => ?_⟩⟩
          apply only_bind (only_request fun _ => trivial)
          intro _
          apply only_bind (only_request fun _ => trivial)
          intro _
          exact only_bind (only_request fun _ => trivial) fun _ => trivial
      · trivial

private theorem confirm_free (userId code : String) :
    (confirmStudentEmailVerification env userId code).Only fun c =>
      ∀ log, Permitted (.confirmVerification userId code) log c := by
  unfold confirmStudentEmailVerification
  split
  · trivial
  · apply only_bind (only_request fun _ => trivial)
    intro found
    cases found with
    | none => trivial
    | some record =>
      refine ⟨fun _ => trivial, fun t => ?_⟩
      change Process.Only _ (if record.expiresAt < t then _ else _)
      split
      · exact only_bind (only_request fun _ => trivial) fun _ => trivial
      · refine ⟨fun _ => trivial, fun verifiedAt => ?_⟩
        apply only_bind (only_request fun _ => ⟨code, rfl⟩)
        intro _
        exact only_bind (only_request fun _ => trivial) fun _ => trivial

private theorem updateProfile_free (userId : String) (dto : UpdateProfileDto) :
    (Students.updateProfile userId dto).Only fun c =>
      ∀ log, Permitted (.updateProfile userId dto) log c := by
  have hupdate : (updateUser userId dto >>= fun user => pure (.user user) : StudentProcess Reply).Only
      fun c => ∀ log, Permitted (.updateProfile userId dto) log c :=
    only_bind (only_request fun _ => rfl) fun _ => trivial
  unfold Students.updateProfile
  split
  · apply only_bind (only_request fun _ => trivial)
    intro existing
    split
    · trivial
    · exact hupdate
  · exact hupdate

private theorem syncFromAuth_free (payload : SyncPayload) :
    (Students.syncFromAuth payload).Only fun c => ∀ log, Permitted (.syncFromAuth payload) log c := by
  apply only_bind (only_request fun _ => rfl)
  intro user
  split
  · exact only_bind (only_request fun _ => trivial) fun _ => trivial
  · trivial

private theorem createUniversity_free (dto : CreateUniversityDto) (adminId : String) :
    (Students.createUniversity env dto adminId).Only fun c => ∀ log, Permitted q log c := by
  apply only_bind (free_assertAdminUser adminId)
  intro _
  apply only_bind (only_ofExcept _)
  intro emailDomain
  apply only_bind (only_request fun _ => trivial)
  intro existing
  split
  · trivial
  · exact only_bind (only_request fun _ => trivial) fun _ => trivial

private theorem toggle_free (id adminId : String) :
    (Students.toggleUniversityActive id adminId).Only fun c => ∀ log, Permitted q log c := by
  apply only_bind (free_assertAdminUser adminId)
  intro _
  apply only_bind (free_existingUniversity id)
  intro university
  exact only_bind (only_request fun _ => trivial) fun _ => trivial

theorem validateUniversityDomain_eq {domain domain' : String}
    (h : validateUniversityDomain env domain = .ok domain') : domain' = domain := by
  unfold validateUniversityDomain at h
  split_ifs at h
  cases h
  rfl

private theorem updateUniversity_wp (id : String) (dto : UpdateUniversityDto) (adminId : String) :
    (Students.updateUniversity env id dto adminId).Wp (Permitted (.updateUniversity id dto adminId))
      (logged fun _ _ => True) (fun _ _ => True) [] := by
  rw [Students.updateUniversity, wp_bind]
  apply (free_wp (free_assertAdminUser adminId) []).mono
  rintro (e | _) log -
  · trivial
  rw [post_ok, wp_bind]
  apply (existingUniversity_wp id log).mono
  rintro (e | v) log hv
  · trivial
  have hrest : ∀ emailDomain : String, emailDomain = dto.newDomain v →
      (do
        let duplicate ← findUniversityLike (some id) ((dto.name.map Text.jsTrim).getD v.name) emailDomain
        if duplicate.isSome then
          throw ⟨.conflict, "University name or email domain already exists."⟩
        else
          let updated ← .call (.updateUniversity id ((dto.name.map Text.jsTrim).getD v.name)
            emailDomain) .ofExcept
          pure (.university updated) : StudentProcess Reply).Wp
        (Permitted (.updateUniversity id dto adminId)) (logged fun _ _ => True)
        (fun _ _ => True) log := by
    intro emailDomain hdomain
    refine ⟨trivial, ?_⟩
    rintro (e | duplicate) log' ⟨-, rfl⟩
    · trivial
    simp only [ofExcept_ok, bind_def, ret_bind]
    split
    · trivial
    · refine ⟨⟨dto, adminId, v, rfl, List.mem_append_left _ hv, hdomain⟩, ?_⟩
      rintro (e | updated) log'' ⟨-, rfl⟩ <;> trivial
  cases hdto : dto.emailDomain with
  | none =>
    apply hrest
    simp [UpdateUniversityDto.newDomain, hdto]
  | some domain =>
    rw [post_ok, wp_bind, checkedDomain, wp_ofExcept]
    cases hvalid : validateUniversityDomain env (Text.jsTrim domain) with
    | error e => trivial
    | ok emailDomain =>
      apply hrest
      rw [validateUniversityDomain_eq hvalid]
      simp [UpdateUniversityDto.newDomain, hdto]

private theorem deleteUniversity_wp (id adminId : String) :
    (Students.deleteUniversity id adminId).Wp (Permitted (.deleteUniversity id adminId))
      (logged fun _ _ => True) (fun _ _ => True) [] := by
  rw [Students.deleteUniversity, wp_bind]
  apply (free_wp (free_assertAdminUser adminId) []).mono
  rintro (e | _) log -
  · trivial
  rw [post_ok, wp_bind]
  apply (existingUniversity_wp id log).mono
  rintro (e | v) log hv
  · trivial
  refine ⟨trivial, ?_⟩
  rintro (e | found) log' ⟨-, rfl⟩
  · trivial
  cases found with
  | some u => trivial
  | none =>
    refine ⟨⟨adminId, v, rfl, List.mem_append_left _ hv, ?_⟩, ?_⟩
    · exact List.mem_append_right _ (List.mem_singleton_self _)
    · rintro (e | _) log'' ⟨-, rfl⟩ <;> trivial

variable (env) in
def handlerContract : (studentServer env).Contract where
  fits := fun _ _ => True
  permits := Permitted
  returns := fun _ _ _ => True
  sound := fun _ _ _ _ _ _ _ => trivial
  holds := by
    intro q
    have htrue : ∀ {p : StudentProcess Reply},
        p.Wp (Permitted q) (logged fun _ _ => True) (fun _ _ => True) [] →
        p.Wp (Permitted q) (logged fun _ _ => True) (Post (fun _ _ => True) fun _ _ => True) [] := by
      intro p h
      apply h.mono
      rintro (e | reply) log - <;> trivial
    cases q with
    | requestVerification userId => exact htrue (free_wp (request_free userId) [])
    | confirmVerification userId code => exact htrue (free_wp (confirm_free userId code) [])
    | updateProfile userId dto => exact htrue (free_wp (updateProfile_free userId dto) [])
    | syncFromAuth payload => exact htrue (free_wp (syncFromAuth_free payload) [])
    | createUniversity dto adminId => exact htrue (free_wp (createUniversity_free dto adminId) [])
    | updateUniversity id dto adminId => exact htrue (updateUniversity_wp id dto adminId)
    | deleteUniversity id adminId => exact htrue (deleteUniversity_wp id adminId)
    | toggleUniversityActive id adminId => exact htrue (free_wp (toggle_free id adminId) [])

end Handlers

section Steps

variable {env : Env} {x y : StudentStage} {l : StudentLabel}

/-- Every verified student has an address that a university holds. -/
def Safe (env : Env) (x : StudentStage) : Prop :=
  ∀ u ∈ x.state.users.rows, u.studentEmailVerified → ∃ v, University.Holds env v x u.email

theorem Safe.enrolled (h : Safe env x) : Enrolled env x.state := by
  intro u hu hverified
  obtain ⟨v, hv, hends, -⟩ := h u hu hverified
  exact ⟨v, hv, hends⟩

theorem cleared_step (h : (studentServer env).Step x l y) {id emailDomain : String}
    (hy : Cleared y id emailDomain) : Cleared x id emailDomain ∨
      ∃ i, l = .act i (.findVerifiedStudent emailDomain) (.ok none) := by
  obtain ⟨task, hm, hlive, hq, hlog⟩ := hy
  cases h with
  | begin q =>
    rcases List.mem_append.mp hm with hm | hm
    · exact .inl ⟨task, hm, hlive, hq, hlog⟩
    · obtain rfl := List.mem_singleton.mp hm
      cases hlog
  | @act s s' tasks i q log c k r ht he =>
    rcases mem_set_cases hm with rfl | ⟨j, -, hj⟩
    · rcases List.mem_append.mp hlog with hlog | hlog
      · exact .inl ⟨_, List.mem_of_getElem? ht, ⟨c, k, rfl⟩, hq, hlog⟩
      · cases List.mem_singleton.mp hlog
        exact .inr ⟨i, rfl⟩
    · exact .inl ⟨task, List.mem_of_getElem? hj, hlive, hq, hlog⟩
  | crash e ht hl =>
    rcases mem_set_cases hm with rfl | ⟨j, -, hj⟩
    · exact absurd hlive Task.not_live_raise
    · exact .inl ⟨task, List.mem_of_getElem? hj, hlive, hq, hlog⟩
  | change hc => exact .inl ⟨task, hm, hlive, hq, hlog⟩

private theorem Holds.stays {v w : University} {email : String} (h : University.Holds env v x email)
    (hcleared : ∀ id emailDomain, Cleared y id emailDomain → Cleared x id emailDomain)
    (hw : w ∈ y.state.universities.rows) (hid : w.id = v.id) (hdomain : w.emailDomain = v.emailDomain) :
    University.Holds env w y email := by
  refine ⟨hw, ?_, ?_⟩
  · rw [hdomain]
    exact h.2.1
  · rw [hid, hdomain]
    exact fun hy => h.2.2 (hcleared _ _ hy)

private theorem Safe.same (hx : Safe env x) (hstate : y.state.users = x.state.users)
    (huniversities : y.state.universities = x.state.universities)
    (hcleared : ∀ id emailDomain, Cleared y id emailDomain → Cleared x id emailDomain) :
    Safe env y := by
  intro u hu hverified
  rw [hstate] at hu
  obtain ⟨v, hv⟩ := hx u hu hverified
  refine ⟨v, Holds.stays hv hcleared ?_ rfl rfl⟩
  rw [huniversities]
  exact hv.1

private theorem Safe.putUser (hx : Safe env x) {row : User}
    (hrow : row.studentEmailVerified → ∃ v, University.Holds env v x row.email)
    (hstate : y.state = x.state.putUser row)
    (hcleared : ∀ id emailDomain, Cleared y id emailDomain → Cleared x id emailDomain) :
    Safe env y := by
  intro u hu hverified
  rw [hstate] at hu
  have hheld : ∃ v, University.Holds env v x u.email := by
    rcases x.state.users.mem_upsert hu with rfl | ⟨hu, -⟩
    · exact hrow hverified
    · exact hx u hu hverified
  obtain ⟨v, hv⟩ := hheld
  refine ⟨v, Holds.stays hv hcleared ?_ rfl rfl⟩
  rw [hstate]
  exact hv.1

private theorem mem_putUniversity {s : StudentDb} {v row : University} :
    v ∈ (s.putUniversity row).universities.rows ↔
      v = row ∨ (v ∈ s.universities.rows ∧ v.id ≠ row.id) := by
  constructor
  · exact s.universities.mem_upsert
  · have hfind := s.universities.find?_upsert row v.id
    rintro (rfl | ⟨hv, hne⟩)
    · rw [if_pos rfl] at hfind
      exact ((s.universities.upsert v).find?_eq_some.mp hfind).1
    · rw [if_neg (Ne.symm hne), s.universities.find?_eq_some.mpr ⟨hv, rfl⟩] at hfind
      exact ((s.universities.upsert row).find?_eq_some.mp hfind).1

private theorem Safe.putUniversity (hx : Safe env x) {row : University}
    (hrow : ∀ v ∈ x.state.universities.rows, v.id = row.id → v.emailDomain = row.emailDomain)
    (hstate : y.state = x.state.putUniversity row)
    (hcleared : ∀ id emailDomain, Cleared y id emailDomain → Cleared x id emailDomain) :
    Safe env y := by
  intro u hu hverified
  rw [hstate] at hu
  obtain ⟨v, hv⟩ := hx u hu hverified
  by_cases hid : v.id = row.id
  · refine ⟨row, Holds.stays hv hcleared ?_ hid.symm (hrow v hv.1 hid).symm⟩
    rw [hstate]
    exact mem_putUniversity.mpr (.inl rfl)
  · refine ⟨v, Holds.stays hv hcleared ?_ rfl rfl⟩
    rw [hstate]
    exact mem_putUniversity.mpr (.inr ⟨hv.1, hid⟩)

/-- The row of an upsert is verified only if the row that was there is. -/
private theorem row_verified {s : StudentDb} {payload : SyncPayload}
    (h : (payload.row s).studentEmailVerified) :
    ∃ u ∈ s.users.rows, u.id = payload.id ∧ u.studentEmailVerified := by
  rw [SyncPayload.row] at h
  cases hfind : s.users.find? payload.id with
  | none =>
    rw [hfind] at h
    cases h
  | some u =>
    rw [hfind] at h
    obtain ⟨hu, hid⟩ := s.users.find?_eq_some.mp hfind
    exact ⟨u, hu, hid, h⟩

private theorem row_email {s : StudentDb} (payload : SyncPayload) :
    (payload.row s).email = payload.email := by
  rw [SyncPayload.row]
  split <;> rfl

private theorem Safe.updateUniversity (hx : Safe env x) {id name emailDomain : String}
    {v : University} (hfind : x.state.universities.find? id = some v)
    (hmeets : (∀ w ∈ x.state.universities.rows, w.id = id → w.emailDomain = emailDomain) ∨
      ∀ u ∈ x.state.users.rows, u.studentEmailVerified →
        (endsWithDomain env u.email emailDomain ∧ ¬ Cleared x id emailDomain) ∨
        ∃ w, w.id ≠ id ∧ University.Holds env w x u.email)
    (hstate : y.state = x.state.putUniversity { v with name, emailDomain })
    (hcleared : ∀ id emailDomain, Cleared y id emailDomain → Cleared x id emailDomain) :
    Safe env y := by
  have hid : v.id = id := (x.state.universities.find?_eq_some.mp hfind).2
  rcases hmeets with hkept | hcovered
  · apply hx.putUniversity _ hstate hcleared
    intro w hw hwid
    exact hkept w hw (hwid.trans hid)
  · intro u hu hverified
    rw [hstate] at hu
    rcases hcovered u hu hverified with ⟨hends, hfree⟩ | ⟨w, hne, hw⟩
    · refine ⟨{ v with name, emailDomain }, ?_, hends, ?_⟩
      · rw [hstate]
        exact mem_putUniversity.mpr (.inl rfl)
      · intro hy
        have hclear := hcleared _ _ hy
        rw [hid] at hclear
        exact hfree hclear
    · refine ⟨w, Holds.stays hw hcleared ?_ rfl rfl⟩
      rw [hstate]
      exact mem_putUniversity.mpr (.inr ⟨hw.1, fun h => hne (h.trans hid)⟩)

private theorem Safe.deleteUniversity (hx : Safe env x) {id emailDomain : String}
    (hclear : Cleared x id emailDomain)
    (hdomain : ∀ w ∈ x.state.universities.rows, w.id = id → w.emailDomain = emailDomain)
    (hstate : y.state =
      { x.state with universities := x.state.universities.erase fun v => v.id = id })
    (hcleared : ∀ id emailDomain, Cleared y id emailDomain → Cleared x id emailDomain) :
    Safe env y := by
  intro u hu hverified
  rw [hstate] at hu
  obtain ⟨v, hv⟩ := hx u hu hverified
  have hne : v.id ≠ id := by
    intro hid
    apply hv.2.2
    rw [hid, hdomain v hv.1 hid]
    exact hclear
  refine ⟨v, Holds.stays hv hcleared ?_ rfl rfl⟩
  rw [hstate]
  simp [hv.1, hne]

private theorem Safe.done {c : Call} {i : ℕ} {q : Request} {log : List (Event interface)}
    {k : c.Answer → StudentProcess Reply} {r : c.Answer} (hx : Safe env x)
    (ht : x.tasks[i]? = some ⟨q, log, .call c k⟩) (hpermitted : Permitted q log c)
    (hmeets : c.Writes → q.Meets env x log) (h : c.Done env x.state r y.state)
    (hcleared : ∀ id emailDomain, Cleared y id emailDomain → Cleared x id emailDomain) :
    Safe env y := by
  cases c with
  | now | randomCode | findUser | findUserByEmail | activeDomains | sendCode | findVerification |
    findUniversity | findUniversityLike | findVerifiedStudent =>
    exact hx.same (h.2 ▸ rfl) (h.2 ▸ rfl) hcleared
  | upsertUnlimitedQuota userId =>
    obtain ⟨-, -, hstate⟩ := h
    exact hx.same (hstate ▸ rfl) (hstate ▸ rfl) hcleared
  | deleteVerifications userId =>
    obtain ⟨-, hstate⟩ := h
    exact hx.same (hstate ▸ rfl) (hstate ▸ rfl) hcleared
  | createVerification data =>
    obtain ⟨-, id, hid, -, hstate⟩ := h
    exact hx.same (hstate ▸ rfl) (hstate ▸ rfl) hcleared
  | deleteVerification id =>
    obtain ⟨-, -, hstate⟩ := h
    exact hx.same (hstate ▸ rfl) (hstate ▸ rfl) hcleared
  | verifyUser userId time =>
    obtain ⟨u, hfind, -, hstate⟩ := h
    obtain ⟨code, rfl⟩ := hpermitted
    obtain ⟨hu, hid⟩ := x.state.users.find?_eq_some.mp hfind
    refine hx.putUser ?_ hstate hcleared
    exact fun _ => hmeets trivial u hu hid
  | updateUser userId data =>
    obtain ⟨u, hfind, -, -, hstate⟩ := h
    obtain rfl : q = .updateProfile userId data := hpermitted
    obtain ⟨hu, hid⟩ := x.state.users.find?_eq_some.mp hfind
    apply hx.putUser _ hstate hcleared
    intro hverified
    have hnew : (u.update data).email = data.email.getD u.email := rfl
    rw [hnew]
    cases hemail : data.email with
    | none => exact hx u hu hverified
    | some email => exact hmeets trivial u hu hid hverified email (Option.mem_def.mpr hemail)
  | upsertUser payload =>
    obtain ⟨-, -, hstate⟩ := h
    obtain rfl : q = .syncFromAuth payload := hpermitted
    apply hx.putUser _ hstate hcleared
    intro hverified
    obtain ⟨u, hu, hid, hold⟩ := row_verified hverified
    rw [row_email]
    exact hmeets trivial u hu hid hold
  | createUniversity name emailDomain createdBy =>
    obtain ⟨id, hid, -, -, hstate⟩ := h
    have hnone := x.state.universities.find?_eq_none.mp hid
    apply hx.putUniversity _ hstate hcleared
    intro v hv he
    exact absurd he (hnone v hv)
  | updateUniversity id name emailDomain =>
    obtain ⟨v, hfind, -, -, hstate⟩ := h
    obtain ⟨dto, adminId, read, rfl, hread, rfl⟩ := hpermitted
    exact hx.updateUniversity hfind (hmeets trivial read hread) hstate hcleared
  | deleteUniversity id =>
    obtain ⟨-, -, hstate⟩ := h
    obtain ⟨adminId, read, rfl, hread, hnobody⟩ := hpermitted
    have hclear : Cleared x id read.emailDomain :=
      ⟨_, List.mem_of_getElem? ht, ⟨_, _, rfl⟩, ⟨adminId, rfl⟩, hnobody⟩
    exact hx.deleteUniversity hclear (hmeets trivial read hread) hstate hcleared
  | setUniversityActive id isActive =>
    obtain ⟨v, hfind, -, hstate⟩ := h
    apply hx.putUniversity _ hstate hcleared
    intro w hw he
    rw [x.state.universities.eq_of_key_eq hw (x.state.universities.find?_eq_some.mp hfind).1 he]

/-- The answer that nobody uses a domain is true, so nobody relies on it. -/
private theorem Safe.checked (hx : Safe env x) {i : ℕ} {emailDomain : String}
    (h : (studentServer env).Step x (.act i (.findVerifiedStudent emailDomain) (.ok none)) y) :
    Safe env y := by
  obtain ⟨q, log, ⟨hanswer, hstate⟩ | ⟨⟨e, herror⟩, -⟩⟩ := h.act_effect
  · intro u hu hverified
    rw [hstate] at hu
    obtain ⟨v, hv, hends, hfree⟩ := hx u hu hverified
    refine ⟨v, by rwa [hstate], hends, ?_⟩
    intro hy
    rcases cleared_step h hy with hold | ⟨j, hj⟩
    · exact hfree hold
    · have hdomain : v.emailDomain = emailDomain := by
        cases hj
        rfl
      have hnone : (x.state.users.rows.find? fun w =>
          w.studentEmailVerified && endsWithDomain env w.email emailDomain) = none := by
        simpa using hanswer.symm
      have hno := List.find?_eq_none.mp hnone u hu
      rw [hdomain] at hends
      simp [hverified, hends] at hno
  · cases herror

theorem Safe.step (hx : Safe env x ∧ ∀ task ∈ x.tasks, (handlerContract env).Kept task)
    (hmeets : Meets env x l) (h : (studentServer env).Step x l y) :
    Safe env y ∧ ∀ task ∈ y.tasks, (handlerContract env).Kept task := by
  obtain ⟨hsafe, hkept⟩ := hx
  refine ⟨?_, (handlerContract env).kept_step x l y hkept h⟩
  by_cases hcheck : ∃ i emailDomain, l = .act i (.findVerifiedStudent emailDomain) (.ok none)
  · obtain ⟨i, emailDomain, rfl⟩ := hcheck
    exact hsafe.checked h
  · have hcleared : ∀ id emailDomain, Cleared y id emailDomain → Cleared x id emailDomain := by
      intro id emailDomain hy
      rcases cleared_step h hy with hold | ⟨i, hl⟩
      · exact hold
      · exact absurd ⟨i, emailDomain, hl⟩ hcheck
    cases h with
    | begin q => exact hsafe.same rfl rfl hcleared
    | crash e ht hl => exact hsafe.same rfl rfl hcleared
    | change hc =>
      obtain ⟨t, rfl⟩ := hc
      exact hsafe.same rfl rfl hcleared
    | @act s s' tasks i q log c k r ht he =>
      have hpermitted : Permitted q log c := (hkept _ (List.mem_of_getElem? ht)).1
      have hdone : ∀ r', c.Done env s r' s' → Safe env
          ⟨s', tasks.set i ⟨q, log ++ [⟨c, r⟩], k r⟩⟩ := by
        intro r' hr
        exact Safe.done hsafe ht hpermitted (fun hc => hmeets hc _ ht) hr hcleared
      rcases he with he | ⟨-, rfl | ⟨r', he⟩⟩
      · exact hdone r he
      · exact hsafe.same rfl rfl hcleared
      · exact hdone r' he

end Steps

section Runs

variable {env : Env} {s : StudentDb} {trace : List (StudentLabel × StudentStage)} {y : StudentStage}

/-- Every verified student has a student address all along a run whose requests meet their
conditions where they write. -/
theorem verified_students_covered (hs : Enrolled env s)
    (h : Run (studentServer env).Step ⟨s, []⟩ trace y) (hmeets : Along (Meets env) ⟨s, []⟩ trace) :
    ∀ e ∈ trace, Enrolled env e.2.state := by
  have hstart : Safe env ⟨s, []⟩ := by
    intro u hu hverified
    obtain ⟨v, hv, hends⟩ := hs u hu hverified
    refine ⟨v, hv, hends, ?_⟩
    rintro ⟨task, hm, -⟩
    cases hm
  have hall := h.forall_along (P := Meets env) (fun _ _ _ hx hl hstep => Safe.step hx hl hstep)
    ⟨hstart, by simp⟩ hmeets
  exact fun e he => (hall e he).1.enrolled

section Moved

/-- `toLowerCase` on ASCII, and a hash. -/
def sampleEnv : Env where
  lower := fun text => String.ofList (text.toList.map Char.toLower)
  sha256 := fun text => text ++ "#"

def student : User where
  id := "u"
  email := "student@uni.edu"
  firstName := "A"
  lastName := "B"

/-- One student, not yet verified, and the university. -/
def campus : StudentDb where
  users := Table.empty.insert student (by simp)
  universities := Table.empty.insert ⟨"v", "University", "@uni.edu", true, "admin"⟩ (by simp)
  verifications := .empty
  clock := 0

private theorem campus_enrolled : Enrolled sampleEnv campus := by
  intro u hu hverified
  obtain rfl : u = student := by simpa [campus] using hu
  cases hverified

private def pending : VerificationData := ⟨"u", "student@uni.edu", "123456#", 900⟩

private theorem request_calls :
    ∃ k₁, Request.handle sampleEnv (.requestVerification "u") = .call (.findUser "u") k₁ ∧
      ∃ k₂, k₁ (.ok (some student)) = .call .activeDomains k₂ ∧
        ∃ k₃, k₂ (.ok ["@uni.edu"]) = .call .randomCode k₃ ∧
          ∃ k₄, k₃ "123456" = .call .now k₄ ∧
            ∃ k₅, k₄ (0 : ℕ) = .call (.deleteVerifications "u") k₅ ∧
              ∃ k₆, k₅ (.ok ()) = .call (.createVerification pending) k₆ := by
  have hstudent : ["@uni.edu"].any (endsWithDomain sampleEnv student.email) = true := by
    decide +kernel
  refine ⟨_, rfl, _, rfl, ?_⟩
  simp only [ofExcept_ok, bind_def, ret_bind, pure_def, hstudent, if_true]
  exact ⟨_, rfl, _, rfl, _, rfl, _, rfl⟩

private theorem confirm_calls :
    ∃ k₁, Request.handle sampleEnv (.confirmVerification "u" "123456") =
        .call (.findVerification "u" "123456#") k₁ ∧
      ∃ k₂, k₁ (.ok (some ⟨pending, "w"⟩)) = .call .now k₂ ∧
        ∃ k₃, k₂ (0 : ℕ) = .call .now k₃ ∧ ∃ k₄, k₃ (0 : ℕ) = .call (.verifyUser "u" 0) k₄ := by
  have hhash : sampleEnv.sha256 (Text.jsTrim "123456") = "123456#" := by decide +kernel
  have hsome : ("123456" : String) ≠ "" := by decide
  simp only [Request.handle, confirmStudentEmailVerification, if_neg hsome, hhash]
  exact ⟨_, rfl, _, rfl, _, rfl, _, rfl⟩

private theorem update_calls (email : String) (h : decide (email ≠ "") = true) :
    ∃ k₁, Request.handle sampleEnv (.updateProfile "u" { email := some email }) =
        .call (.findUserByEmail email) k₁ ∧
      ∃ k₂, k₁ (.ok none) = .call (.updateUser "u" { email := some email }) k₂ := by
  have hsome : (some email).filter (fun e => e ≠ "") = some email := by
    rw [Option.filter_some, if_pos h]
  simp only [Request.handle, Students.updateProfile, hsome]
  exact ⟨_, rfl, _, rfl⟩

private def confirmed : User :=
  { student with studentEmailVerified := true, studentEmailVerifiedAt := some 0 }

private theorem confirmed_updates {s : StudentDb} (hrows : s.users.rows = [confirmed])
    (data : UpdateProfileDto) : s.users.find? "u" = some confirmed ∧
      s.UserFits (confirmed.update data) ∧
      (s.putUser (confirmed.update data)).users.rows = [confirmed.update data] := by
  refine ⟨?_, ?_, ?_⟩
  · apply s.users.find?_eq_some.mpr
    simp [hrows, confirmed, student]
  · intro u hu hne
    rw [hrows, List.mem_singleton] at hu
    subst hu
    exact absurd rfl hne
  · simp [StudentDb.putUser, Table.upsert, hrows, User.update]

private theorem not_cleared {x : StudentStage} {id emailDomain : String}
    (h : ∀ task ∈ x.tasks, ∀ id adminId, task.request ≠ .deleteUniversity id adminId) :
    ¬ Cleared x id emailDomain := by
  rintro ⟨task, hm, -, ⟨adminId, hq⟩, -⟩
  exact h task hm id adminId hq

private def uni : University := ⟨"v", "University", "@uni.edu", true, "admin"⟩

private theorem confirmed_run :
    Reaches (fun x l y => (studentServer sampleEnv).Step x l y ∧ Meets sampleEnv x l) ⟨campus, []⟩
      fun x => x.state.users.rows = [confirmed] ∧ x.state.universities = campus.universities ∧
        ∀ task ∈ x.tasks, ∀ id adminId, task.request ≠ .deleteUniversity id adminId := by
  obtain ⟨k₁, h₁, k₂, h₂, k₃, h₃, k₄, h₄, k₅, h₅, k₆, h₆⟩ := request_calls
  obtain ⟨l₁, g₁, l₂, g₂, l₃, g₃, l₄, g₄⟩ := confirm_calls
  apply Reaches.next ⟨.begin (.requestVerification "u"), trivial⟩
  apply Reaches.next ⟨.act_last h₁ (Or.inl ⟨rfl, rfl⟩), nofun⟩
  apply Reaches.next ⟨.act_last h₂ (Or.inl ⟨rfl, rfl⟩), nofun⟩
  apply Reaches.next ⟨.act_last h₃ (Or.inl ⟨⟨123456, by decide, by decide, rfl⟩, rfl⟩), nofun⟩
  apply Reaches.next ⟨.act_last h₄ (Or.inl ⟨rfl, rfl⟩), nofun⟩
  apply Reaches.next ⟨.act_last h₅ (Or.inl ⟨rfl, rfl⟩), nofun⟩
  apply Reaches.next ⟨.act_last h₆ (Or.inl ⟨by decide, "w", by decide, rfl, rfl⟩), nofun⟩
  apply Reaches.next ⟨.begin (.confirmVerification "u" "123456"), trivial⟩
  apply Reaches.next ⟨.act_last g₁ (Or.inl ⟨rfl, rfl⟩), nofun⟩
  apply Reaches.next ⟨.act_last g₂ (Or.inl ⟨rfl, rfl⟩), nofun⟩
  apply Reaches.next ⟨.act_last g₃ (Or.inl ⟨rfl, rfl⟩), nofun⟩
  refine Reaches.next ⟨.act_last g₄ (Or.inl ⟨student, rfl, rfl, rfl⟩), ?_⟩
    (Reaches.here ⟨rfl, rfl, by simp⟩)
  intro _ task htask
  obtain rfl := Option.some.inj htask
  intro u hu _
  obtain rfl : u = student := List.mem_singleton.mp hu
  refine ⟨uni, List.mem_singleton_self _, by decide +kernel, not_cleared ?_⟩
  simp

private def renamed : UpdateProfileDto := { email := some "b@UNI.edu" }

private theorem renamed_run :
    Reaches (fun x l y => (studentServer sampleEnv).Step x l y ∧ Meets sampleEnv x l) ⟨campus, []⟩
      fun x => x.state.users.rows = [confirmed.update renamed] := by
  apply confirmed_run.trans
  rintro ⟨s, tasks⟩ ⟨hrows, hschools, htasks⟩
  obtain ⟨k₁, h₁, k₂, h₂⟩ := update_calls "b@UNI.edu" (by decide)
  obtain ⟨hfind, hfits, hafter⟩ := confirmed_updates hrows renamed
  have hnone : s.users.rows.find? (fun u => u.email = "b@UNI.edu") = none := by
    rw [show s.users.rows = _ from hrows]
    decide
  apply Reaches.next ⟨.begin (.updateProfile "u" renamed), trivial⟩
  apply Reaches.next ⟨.act_last h₁ (Or.inl ⟨by rw [hnone], rfl⟩), nofun⟩
  refine Reaches.next ⟨.act_last h₂ (Or.inl ⟨confirmed, hfind, hfits, rfl, rfl⟩), ?_⟩
    (Reaches.here hafter)
  intro _ task htask
  rw [List.getElem?_concat_length] at htask
  obtain rfl := Option.some.inj htask
  rintro u - - - email ⟨⟩
  refine ⟨uni, ?_, by decide +kernel, not_cleared ?_⟩
  · rw [show s.universities = _ from hschools]
    exact List.mem_singleton_self _
  · intro task hm
    rcases List.mem_append.mp hm with hm | hm
    · exact htasks task hm
    · obtain rfl := List.mem_singleton.mp hm
      simp

theorem verified_students_covered_campus :
    ∃ (trace : List (StudentLabel × StudentStage)) (y : StudentStage),
      Run (studentServer sampleEnv).Step ⟨campus, []⟩ trace y ∧
        y.state.users.rows = [confirmed.update renamed] ∧
        ∀ e ∈ trace, Enrolled sampleEnv e.2.state := by
  obtain ⟨trace, y, hrun, hmeets, hy⟩ := renamed_run.along
  exact ⟨trace, y, hrun, hy, verified_students_covered campus_enrolled hrun hmeets⟩

private def moved : UpdateProfileDto := { email := some "student@home.net" }

/-- A confirmed student may move to an address of no university and stays verified. -/
theorem verified_student_moves :
    ∃ (trace : List (StudentLabel × StudentStage)) (y : StudentStage),
      Run (studentServer sampleEnv).Step ⟨campus, []⟩ trace y ∧ ¬ Enrolled sampleEnv y.state := by
  have hrun : Reaches (studentServer sampleEnv).Step ⟨campus, []⟩ fun x =>
      x.state.users.rows = [confirmed.update moved] ∧
        x.state.universities = campus.universities := by
    apply (confirmed_run.mono fun _ _ _ h => h.1).trans
    rintro ⟨s, tasks⟩ ⟨hrows, hschools, -⟩
    obtain ⟨k₁, h₁, k₂, h₂⟩ := update_calls "student@home.net" (by decide)
    obtain ⟨hfind, hfits, hafter⟩ := confirmed_updates hrows moved
    have hnone : s.users.rows.find? (fun u => u.email = "student@home.net") = none := by
      rw [show s.users.rows = _ from hrows]
      decide
    apply Reaches.next (.begin (.updateProfile "u" moved))
    apply Reaches.next (.act_last h₁ (Or.inl ⟨by rw [hnone], rfl⟩))
    apply Reaches.next (.act_last h₂ (Or.inl ⟨confirmed, hfind, hfits, rfl, rfl⟩))
    exact Reaches.here ⟨hafter, hschools⟩
  obtain ⟨trace, y, hrun, hrows, hschools⟩ := hrun
  refine ⟨trace, y, hrun, ?_⟩
  intro hy
  have hmem : confirmed.update moved ∈ y.state.users.rows := by simp [hrows]
  obtain ⟨v, hv, hends⟩ := hy _ hmem rfl
  rw [hschools] at hv
  obtain rfl : v = uni := by simpa [campus, uni] using hv
  revert hends
  decide +kernel

end Moved

end Runs

end CloudVM.Students
