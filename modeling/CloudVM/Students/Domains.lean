import CloudVM.Framework.Language
import CloudVM.Students.Verified

/-!
# Student domains

`isStudentEmailAsync` asks whether the whole address ends with a domain. The pattern of
`validateUniversityDomain` has no `@` but at its head and starts with an `@` or a dot, so for a
validated domain this is a statement about the host of the address.
-/

namespace CloudVM.Students

open Process Text

section Host

/-- What is used of `toLowerCase`: it takes the two sides of an `@` apart from each other, and makes
neither an `@` nor a dot. -/
structure LowersAddresses (lower : String → String) : Prop where
  parts : ∀ localPart host, lower (localPart ++ "@" ++ host) = lower localPart ++ "@" ++ lower host
  atFree : ∀ text, '@' ∉ text.toList → '@' ∉ (lower text).toList
  head : ∀ text, text ≠ "" → startsWith text "." = false →
    lower text ≠ "" ∧ startsWith (lower text) "." = false

/-- The part after the first `@`. -/
def hostPart (email : String) : String :=
  String.ofList ((email.toList.dropWhile fun c => c ≠ '@').drop 1)

def MatchesAtBoundary (host domain : String) : Prop :=
  domain = "@" ++ host ∨
    startsWith domain "." = true ∧ ∃ label, label ≠ "" ∧ host = label ++ domain

/-- The host ends with the letters of the domain, but not at a label boundary. -/
def MerelyEndsAlike (host domain : String) : Prop :=
  ∃ before letters, host = before ++ letters ∧
    (domain = "@" ++ letters ∧ before ≠ "" ∨
      domain = "." ++ letters ∧ Text.endsWith before "." = false)

def Passed (env : Env) (emailDomain : String) : Prop :=
  ∃ domain, validateUniversityDomain env domain = .ok emailDomain

def Validated (env : Env) (s : StudentDb) : Prop :=
  ∀ v ∈ s.universities.rows, Passed env v.emailDomain

end Host

section Format

variable {env : Env} {domain : String}

private def domainChar (c : Char) : Bool :=
  ('a' ≤ c && c ≤ 'z') || c.isDigit || c == '.' || c == '-'

open Pattern in
theorem domainFormat_cases {text : List Char} (h : domainFormat.test text = true) :
    ∃ first rest, text = first :: rest ∧ (first = '@' ∨ first = '.') ∧ '@' ∉ rest := by
  let letter (c : Char) : Bool := 'a' ≤ c && c ≤ 'z'
  let dot (c : Char) : Bool := c == '.'
  let head (c : Char) : Bool := c == '@' || dot c
  have htakes : Takes (all [one head, plus (one domainChar), one dot, one letter, plus (one letter)]) _ :=
    (takes_one head).seq ((takes_one domainChar).plus.seq
      ((takes_one dot).seq ((takes_one letter).seq ((takes_one letter).plus.seq takes_empty))))
  have hletter : ∀ c, letter c = true → domainChar c = true := by
    intro c hc
    simp only [letter, domainChar] at hc ⊢
    rw [hc]
    rfl
  have hdot : ∀ c, dot c = true → domainChar c = true := by
    intro c hc
    obtain rfl : c = '.' := by simpa [dot] using hc
    decide
  have hchars := over_single (p := domainChar) (q := domainChar) fun _ hc => hc
  have hletters := over_single hletter
  have hover := (hchars.mul hchars.kstar).mul
    ((over_single hdot).mul (hletters.mul ((hletters.mul hletters.kstar).mul over_one)))
  obtain ⟨w, ⟨first, hfirst, rfl⟩, rest, hrest, rfl⟩ :=
    Language.mem_mul.mp ((test_all_whole htakes text).mp h)
  refine ⟨first, rest, rfl, by simpa [head, dot] using hfirst, ?_⟩
  intro hat
  exact absurd (hover rest hrest '@' hat) (by decide)

theorem validated_cases {domain' : String} (h : validateUniversityDomain env domain' = .ok domain) :
    env.lower domain = domain ∧
      ∃ first rest, domain.toList = first :: rest ∧ (first = '@' ∨ first = '.') ∧ '@' ∉ rest := by
  unfold validateUniversityDomain at h
  split at h
  · cases h
  split at h
  · cases h
  rename_i hlower
  split at h
  · cases h
  split at h
  · rename_i hformat
    cases h
    exact ⟨(not_not.mp hlower).symm, domainFormat_cases hformat⟩
  · cases h

end Format

section Address

variable {email : String}

theorem hostPart_split (h : email.toList.count '@' = 1) :
    ∃ localPart, email = localPart ++ "@" ++ hostPart email ∧ '@' ∉ localPart.toList ∧
      '@' ∉ (hostPart email).toList := by
  have hmem : '@' ∈ email.toList := List.count_pos_iff.mp (by omega)
  obtain ⟨before, after, hsplit, hbefore⟩ := List.eq_append_cons_of_mem hmem
  have hafter : '@' ∉ after := by
    rw [hsplit, List.count_append, List.count_cons_self] at h
    exact List.count_eq_zero.mp (by omega)
  have hpass : ∀ c ∈ before, decide (c ≠ '@') = true := by
    intro c hc
    apply decide_eq_true
    rintro rfl
    exact hbefore hc
  have hhost : hostPart email = String.ofList after := by
    rw [hostPart, hsplit, List.dropWhile_append_of_pos hpass]
    rfl
  refine ⟨String.ofList before, ?_, by rwa [String.toList_ofList], by rwa [hhost, String.toList_ofList]⟩
  apply String.toList_inj.mp
  simp [hsplit, hhost]

private theorem startsWith_dot (text : String) :
    startsWith text "." = true ↔ text.toList.head? = some '.' := by
  rw [startsWith]
  cases text.toList with
  | nil => simp
  | cons c rest =>
    rw [List.head?_cons, Option.some_inj, List.isPrefixOf_iff_prefix]
    exact List.cons_prefix_cons.trans ⟨fun h => h.1.symm, fun h => ⟨h.symm, List.nil_prefix⟩⟩

theorem endsWith_iff {text domain : String} :
    Text.endsWith text domain = true ↔ domain.toList <:+ text.toList := List.isSuffixOf_iff_suffix

private theorem whole_iff {left host rest : List Char} (hleft : '@' ∉ left) (hhost : '@' ∉ host) :
    '@' :: rest <:+ left ++ '@' :: host ↔ rest = host := by
  constructor
  · rintro ⟨before, h⟩
    exact ((List.append_cons_inj_of_notMem hleft hhost).mp h.symm).2.2.symm
  · rintro rfl
    exact List.suffix_append _ _

private theorem below_iff {left host rest : List Char} (hrest : '@' ∉ rest) (hhead : host.head? ≠ some '.') :
    '.' :: rest <:+ left ++ '@' :: host ↔ ∃ label, label ≠ [] ∧ host = label ++ '.' :: rest := by
  have hat : '@' ∉ '.' :: rest := by simpa using hrest
  rw [suffix_append_cons hat]
  constructor
  · rintro ⟨label, rfl⟩
    refine ⟨label, ?_, rfl⟩
    rintro rfl
    exact hhead rfl
  · rintro ⟨label, -, rfl⟩
    exact List.suffix_append _ _

variable {env : Env} {domain domain' : String}

/-- For a validated domain the end of the address is a question about its host. -/
theorem endsWithDomain_iff (hlower : LowersAddresses env.lower) (hone : email.toList.count '@' = 1)
    (hhost : hostPart email ≠ "") (hdot : startsWith (hostPart email) "." = false)
    (h : validateUniversityDomain env domain' = .ok domain) :
    endsWithDomain env email domain = true ↔
      MatchesAtBoundary (env.lower (hostPart email)) domain := by
  obtain ⟨hsame, first, rest, hdomain, hfirst, hrest⟩ := validated_cases h
  obtain ⟨localPart, hsplit, hlocal, hfree⟩ := hostPart_split hone
  obtain ⟨-, hhead⟩ := hlower.head _ hhost hdot
  have hemail : (env.lower email).toList =
      (env.lower localPart).toList ++ '@' :: (env.lower (hostPart email)).toList := by
    conv_lhs => rw [hsplit, hlower.parts]
    simp
  have hleft := hlower.atFree _ hlocal
  have hright := hlower.atFree _ hfree
  generalize env.lower (hostPart email) = host at hemail hright hhead ⊢
  have hhost' : host.toList.head? ≠ some '.' := by
    rw [Ne, ← startsWith_dot, hhead]
    exact Bool.false_ne_true
  have hwhole : domain = "@" ++ host ↔ first = '@' ∧ rest = host.toList := by
    rw [← String.toList_inj, hdomain, String.toList_append]
    exact List.cons_eq_cons
  have hbelow : (∃ label, label ≠ "" ∧ host = label ++ domain) ↔
      ∃ label, label ≠ [] ∧ host.toList = label ++ first :: rest := by
    constructor
    · rintro ⟨label, hne, rfl⟩
      exact ⟨label.toList, mt String.toList_eq_nil_iff.mp hne, by rw [String.toList_append, hdomain]⟩
    · rintro ⟨label, hne, hlist⟩
      refine ⟨String.ofList label, ?_, ?_⟩
      · rwa [Ne, ← String.toList_inj, String.toList_ofList]
      · rw [← String.toList_inj, hlist, String.toList_append, String.toList_ofList, hdomain]
  rw [endsWithDomain, endsWith_iff, hsame, hemail, hdomain, MatchesAtBoundary, hwhole, hbelow,
    startsWith_dot, hdomain, List.head?_cons, Option.some_inj]
  rcases hfirst with rfl | rfl
  · rw [whole_iff hleft hright]
    simp
  · rw [below_iff hrest hhost']
    simp

end Address

section Letters

variable {host domain : String}

theorem MerelyEndsAlike.not_matches (h : MerelyEndsAlike host domain) :
    ¬ MatchesAtBoundary host domain := by
  obtain ⟨before, letters, rfl, ⟨rfl, hne⟩ | ⟨rfl, hends⟩⟩ := h
  · rintro (hwhole | ⟨hstart, -⟩)
    · have hsame : "" ++ letters = before ++ letters := by
        rw [String.empty_append]
        exact (String.append_right_inj "@").mp hwhole
      exact hne ((String.append_left_inj letters).mp hsame).symm
    · rw [startsWith_dot, String.toList_append] at hstart
      exact absurd hstart (by simp)
  · rintro (hwhole | ⟨-, label, -, hbelow⟩)
    · have hhead := congrArg (fun text => text.toList.head?) hwhole
      simp only [String.toList_append] at hhead
      exact absurd hhead (by simp)
    · rw [← String.append_assoc] at hbelow
      rw [(String.append_left_inj letters).mp hbelow, ← Bool.not_eq_true, endsWith_iff] at hends
      apply hends
      rw [String.toList_append]
      exact List.suffix_append _ _

end Letters

section Answer

variable {env : Env} {s t : StudentDb} {email : String} {accepted : Bool}

theorem isStudentEmail_ends :
    (isStudentEmail env email).Ends (mayServe env) s (.ok accepted) t ↔
      t = s ∧ (accepted = true ↔ ∃ v ∈ s.universities.rows, v.isActive = true ∧
        endsWithDomain env email v.emailDomain = true) := by
  have hany : ((s.universities.rows.filter fun v => v.isActive).map University.emailDomain).any
      (endsWithDomain env email) = true ↔ ∃ v ∈ s.universities.rows, v.isActive = true ∧
        endsWithDomain env email v.emailDomain = true := by
    simp only [List.any_map, List.any_filter, List.any_eq_true, Function.comp_apply, Bool.and_eq_true]
  rw [← hany]
  constructor
  · rintro ⟨r, u, hserve | ⟨⟨e, rfl⟩, -⟩, hend⟩
    · obtain ⟨rfl, rfl⟩ := hserve
      obtain ⟨hout, rfl⟩ := hend
      cases hout
      exact ⟨rfl, Iff.rfl⟩
    · cases hend.1
  · rintro ⟨rfl, h⟩
    refine ⟨_, t, .inl ⟨rfl, rfl⟩, ?_, rfl⟩
    rw [Bool.eq_iff_iff.mpr h]

/-- With validated domains an address is accepted at label boundaries only. -/
theorem student_domains (hlower : LowersAddresses env.lower) (hs : Validated env s)
    (hone : email.toList.count '@' = 1) (hhost : hostPart email ≠ "")
    (hdot : startsWith (hostPart email) "." = false) :
    ((isStudentEmail env email).Ends (mayServe env) s (.ok accepted) t ↔
      t = s ∧ (accepted = true ↔ ∃ v ∈ s.universities.rows, v.isActive = true ∧
        MatchesAtBoundary (env.lower (hostPart email)) v.emailDomain)) ∧
    ((∀ v ∈ s.universities.rows, v.isActive = true →
        MerelyEndsAlike (env.lower (hostPart email)) v.emailDomain) →
      ¬ (isStudentEmail env email).Ends (mayServe env) s (.ok true) t) := by
  have hexists : (∃ v ∈ s.universities.rows, v.isActive = true ∧
      endsWithDomain env email v.emailDomain = true) ↔
      ∃ v ∈ s.universities.rows, v.isActive = true ∧
        MatchesAtBoundary (env.lower (hostPart email)) v.emailDomain := by
    apply exists_congr
    intro v
    apply and_congr_right
    intro hv
    obtain ⟨domain, hdomain⟩ := hs v hv
    rw [endsWithDomain_iff hlower hone hhost hdot hdomain]
  constructor
  · rw [isStudentEmail_ends, hexists]
  · intro halike hend
    rw [isStudentEmail_ends, hexists] at hend
    obtain ⟨v, hv, hactive, hmatch⟩ := hend.2.mp rfl
    exact (halike v hv hactive).not_matches hmatch

private theorem lowersAddresses_sample : LowersAddresses sampleEnv.lower where
  parts localPart host := by
    have hat : '@'.toLower = '@' := rfl
    apply String.toList_inj.mp
    simp [sampleEnv, hat]
  atFree text h := by
    simp only [sampleEnv, String.toList_ofList, List.mem_map, not_exists, not_and]
    intro c hc hlower
    exact h (toLower_eq (.inl (by decide)) hlower ▸ hc)
  head text hne hdot := by
    rw [← Bool.not_eq_true, startsWith_dot] at hdot
    constructor
    · intro h
      have hlist := congrArg String.toList h
      simp only [sampleEnv, String.toList_ofList] at hlist
      exact hne (String.toList_eq_nil_iff.mp (List.map_eq_nil_iff.mp hlist))
    · rw [← Bool.not_eq_true, startsWith_dot]
      simp only [sampleEnv, String.toList_ofList, List.head?_map, Option.map_eq_some_iff, not_exists,
        not_and]
      intro c hc hlower
      rw [toLower_eq (.inl (by decide)) hlower] at hc
      exact hdot hc

private theorem validated_campus : Validated sampleEnv campus := by
  intro v hv
  obtain rfl : v = ⟨"v", "University", "@uni.edu", true, "admin"⟩ := by simpa [campus] using hv
  exact ⟨"@uni.edu", by decide +kernel⟩

private theorem accepted_uni :
    "@uni.edu" = "@" ++ sampleEnv.lower (hostPart "Ada@Uni.edu") := by decide +kernel

private theorem alike_myuni :
    MerelyEndsAlike (sampleEnv.lower (hostPart "ada@myuni.edu")) "@uni.edu" :=
  ⟨"my", "uni.edu", by decide +kernel, .inl ⟨by decide, by decide⟩⟩

theorem student_domains_campus :
    (isStudentEmail sampleEnv "Ada@Uni.edu").Ends (mayServe sampleEnv) campus (.ok true) campus ∧
      ¬ (isStudentEmail sampleEnv "ada@myuni.edu").Ends (mayServe sampleEnv) campus (.ok true) campus := by
  constructor
  · refine (student_domains lowersAddresses_sample validated_campus (by decide +kernel)
      (by decide +kernel) (by decide +kernel)).1.mpr ⟨rfl, iff_of_true rfl ?_⟩
    exact ⟨⟨"v", "University", "@uni.edu", true, "admin"⟩, by simp [campus], rfl, .inl accepted_uni⟩
  · apply (@student_domains sampleEnv campus campus "ada@myuni.edu" true lowersAddresses_sample
      validated_campus (by decide +kernel) (by decide +kernel) (by decide +kernel)).2
    intro v hv _
    obtain rfl : v = ⟨"v", "University", "@uni.edu", true, "admin"⟩ := by simpa [campus] using hv
    exact alike_myuni

end Answer

section Runs

variable (env : Env)

def WritesPassed : Call → Prop
  | .createUniversity _ emailDomain _ => Passed env emailDomain
  | .updateUniversity _ _ emailDomain => Passed env emailDomain
  | _ => True

def ReadsPassed : (c : Call) → c.Answer → Prop
  | .findUniversity _, r => ∀ v, r = .ok (some v) → Passed env v.emailDomain
  | _, _ => True

/-- A process that passes on only what has passed. -/
abbrev Passes {α : Type} (p : StudentProcess α) (Q : α → Prop) : Prop :=
  p.Within (WritesPassed env) (ReadsPassed env) Q

def Domainless : Call → Prop
  | .createUniversity _ _ _ => False
  | .updateUniversity _ _ _ => False
  | _ => True

variable {env} {α : Type}

theorem passes_domainless {p : StudentProcess α} (h : p.Only Domainless) :
    Passes env p fun _ => True := by
  apply h.within
  intro c hc
  cases c <;> first | exact hc.elim | trivial

private theorem domainless_isStudentEmail (email : String) :
    (isStudentEmail env email).Only Domainless := by
  apply only_bind (only_request trivial)
  intro domains
  trivial

private theorem domainless_requestVerification (userId : String) :
    (requestStudentEmailVerification env userId).Only Domainless := by
  apply only_bind (only_request trivial)
  intro found
  cases found with
  | none => trivial
  | some user =>
    apply only_bind (domainless_isStudentEmail user.email)
    intro isStudent
    split
    · split
      · trivial
      · refine only_bind ⟨trivial, fun _ => trivial⟩ fun code => ?_
        refine only_bind ⟨trivial, fun _ => trivial⟩ fun t => ?_
        apply only_bind (only_request trivial)
        intro _
        apply only_bind (only_request trivial)
        intro _
        apply only_bind (only_request trivial)
        intro _
        trivial
    · trivial

private theorem domainless_confirmVerification (userId code : String) :
    (confirmStudentEmailVerification env userId code).Only Domainless := by
  unfold confirmStudentEmailVerification
  split
  · trivial
  · apply only_bind (only_request trivial)
    intro found
    cases found with
    | none => trivial
    | some record =>
      refine only_bind ⟨trivial, fun _ => trivial⟩ fun t => ?_
      split
      · apply only_bind (only_request trivial)
        intro _
        trivial
      · refine only_bind ⟨trivial, fun _ => trivial⟩ fun verifiedAt => ?_
        apply only_bind (only_request trivial)
        intro _
        apply only_bind (only_request trivial)
        intro _
        trivial

private theorem domainless_updateProfile (userId : String) (dto : UpdateProfileDto) :
    (updateProfile userId dto).Only Domainless := by
  have hupdate : (updateUser userId dto >>= fun user => pure (Reply.user user)).Only Domainless := by
    apply only_bind (only_request trivial)
    intro user
    trivial
  unfold updateProfile
  split
  · apply only_bind (only_request trivial)
    intro existing
    split
    · trivial
    · exact hupdate
  · exact hupdate

private theorem domainless_syncFromAuth (payload : SyncPayload) :
    (syncFromAuth payload).Only Domainless := by
  apply only_bind (only_request trivial)
  intro user
  split
  · apply only_bind (only_request trivial)
    intro _
    trivial
  · trivial

private theorem domainless_assertAdminUser (adminId : String) :
    (assertAdminUser adminId).Only Domainless := by
  apply only_bind (only_request trivial)
  intro admin
  split <;> trivial

private theorem passes_existingUniversity (id : String) :
    Passes env (existingUniversity id) fun v => Passed env v.emailDomain := by
  refine within_bind (Q := fun found => ∀ v, found = some v → Passed env v.emailDomain) ?_ ?_
  · refine ⟨trivial, fun r hr => within_ofExcept ?_⟩
    rintro found rfl v rfl
    exact hr v rfl
  · intro found hfound
    cases found with
    | none => trivial
    | some v => exact hfound v rfl

private theorem passes_checkedDomain (domain : String) :
    Passes env (checkedDomain env domain) (Passed env) := by
  apply within_ofExcept
  intro emailDomain h
  exact ⟨_, h⟩

theorem passes_createUniversity (dto : CreateUniversityDto) (adminId : String) :
    Passes env (createUniversity env dto adminId) fun _ => True := by
  refine within_bind (passes_domainless (domainless_assertAdminUser adminId)) fun _ _ => ?_
  -- folded, since it is the check's outcome that counts and not how it comes about
  have hchecked := @passes_checkedDomain env dto.emailDomain
  generalize checkedDomain env dto.emailDomain = checked at hchecked ⊢
  refine within_bind hchecked fun emailDomain hpassed => ?_
  refine within_bind (passes_domainless (only_request trivial)) fun existing _ => ?_
  split
  · trivial
  · refine within_bind ⟨hpassed, fun _ _ => within_ofExcept fun _ _ => trivial⟩ fun _ _ => ?_
    trivial

theorem passes_updateUniversity (id : String) (dto : UpdateUniversityDto) (adminId : String) :
    Passes env (updateUniversity env id dto adminId) fun _ => True := by
  have hwrite : ∀ name emailDomain, Passed env emailDomain → Passes env (do
      let duplicate ← findUniversityLike (some id) name emailDomain
      if duplicate.isSome then
        throw ⟨.conflict, "University name or email domain already exists."⟩
      else
        let updated ← .call (.updateUniversity id name emailDomain) .ofExcept
        pure (Reply.university updated)) fun _ => True := by
    intro name emailDomain hpassed
    refine within_bind (passes_domainless (only_request trivial)) fun duplicate _ => ?_
    split
    · trivial
    · refine within_bind ⟨hpassed, fun _ _ => within_ofExcept fun _ _ => trivial⟩ fun _ _ => ?_
      trivial
  refine within_bind (passes_domainless (domainless_assertAdminUser adminId)) fun _ _ => ?_
  refine within_bind (passes_existingUniversity id) fun university huniversity => ?_
  obtain ⟨name, emailDomain⟩ := dto
  cases emailDomain with
  | some domain =>
    have hchecked := @passes_checkedDomain env domain
    simp only
    generalize checkedDomain env domain = checked at hchecked ⊢
    exact within_bind hchecked fun d hd => hwrite _ d hd
  | none => exact hwrite _ _ huniversity

private theorem passes_deleteUniversity (id adminId : String) :
    Passes env (deleteUniversity id adminId) fun _ => True := by
  refine within_bind (passes_domainless (domainless_assertAdminUser adminId)) fun _ _ => ?_
  refine within_bind (passes_existingUniversity id) fun university _ => ?_
  refine within_bind (passes_domainless (only_request trivial)) fun student _ => ?_
  split
  · trivial
  · refine within_bind (passes_domainless (only_request trivial)) fun _ _ => ?_
    trivial

private theorem passes_toggleUniversityActive (id adminId : String) :
    Passes env (toggleUniversityActive id adminId) fun _ => True := by
  refine within_bind (passes_domainless (domainless_assertAdminUser adminId)) fun _ _ => ?_
  refine within_bind (passes_existingUniversity id) fun university _ => ?_
  refine within_bind (passes_domainless (only_request trivial)) fun _ _ => ?_
  trivial

theorem passes_handle (q : Request) : Passes env (q.handle env) fun _ => True := by
  cases q with
  | requestVerification userId => exact passes_domainless (domainless_requestVerification userId)
  | confirmVerification userId code =>
    exact passes_domainless (domainless_confirmVerification userId code)
  | updateProfile userId dto => exact passes_domainless (domainless_updateProfile userId dto)
  | syncFromAuth payload => exact passes_domainless (domainless_syncFromAuth payload)
  | createUniversity dto adminId => exact passes_createUniversity dto adminId
  | updateUniversity id dto adminId => exact passes_updateUniversity id dto adminId
  | deleteUniversity id adminId => exact passes_deleteUniversity id adminId
  | toggleUniversityActive id adminId => exact passes_toggleUniversityActive id adminId

variable {s s' : StudentDb}

theorem validated_putUniversity (hs : Validated env s) {row : University}
    (h : Passed env row.emailDomain) : Validated env (s.putUniversity row) := by
  intro v hv
  rcases s.universities.mem_upsert hv with rfl | ⟨hv, -⟩
  · exact h
  · exact hs v hv

theorem validated_of_done {c : Call} {r : c.Answer} (hs : Validated env s)
    (hc : WritesPassed env c) (h : c.Done env s r s') : Validated env s' := by
  cases c with
  | now | randomCode | findUser | findUserByEmail | activeDomains | sendCode | findVerification |
    findUniversity | findUniversityLike | findVerifiedStudent =>
    exact h.2 ▸ hs
  | upsertUnlimitedQuota userId =>
    obtain ⟨-, -, rfl⟩ := h
    exact hs
  | deleteVerifications userId =>
    obtain ⟨-, rfl⟩ := h
    exact hs
  | createVerification data =>
    obtain ⟨-, id, hid, -, rfl⟩ := h
    exact hs
  | deleteVerification id =>
    obtain ⟨-, -, rfl⟩ := h
    exact hs
  | verifyUser userId time =>
    obtain ⟨u, -, -, rfl⟩ := h
    exact hs
  | updateUser userId data =>
    obtain ⟨u, -, -, -, rfl⟩ := h
    exact hs
  | upsertUser payload =>
    obtain ⟨-, -, rfl⟩ := h
    exact hs
  | createUniversity name emailDomain createdBy =>
    obtain ⟨id, -, -, -, rfl⟩ := h
    exact validated_putUniversity hs hc
  | updateUniversity id name emailDomain =>
    obtain ⟨v, -, -, -, rfl⟩ := h
    exact validated_putUniversity hs hc
  | deleteUniversity id =>
    obtain ⟨-, -, rfl⟩ := h
    intro v hv
    exact hs v (List.mem_of_mem_filter hv)
  | setUniversityActive id isActive =>
    obtain ⟨v, hfind, -, rfl⟩ := h
    exact validated_putUniversity hs (hs v (s.universities.find?_eq_some.mp hfind).1)

theorem validated_of_mayServe {c : Call} {r : c.Answer} (hs : Validated env s)
    (hc : WritesPassed env c) (h : mayServe env c s r s') : Validated env s' := by
  rcases h with h | ⟨-, rfl | ⟨r', h⟩⟩
  · exact validated_of_done hs hc h
  · exact hs
  · exact validated_of_done hs hc h

theorem readsPassed_of_mayServe {c : Call} {r : c.Answer} (hs : Validated env s)
    (h : mayServe env c s r s') : ReadsPassed env c r := by
  cases c with
  | findUniversity id =>
    rintro v rfl
    rcases h with h | ⟨⟨e, he⟩, -⟩
    · exact hs v (s.universities.find?_eq_some.mp (Except.ok.inj h.1).symm).1
    · cases he
  | _ => trivial

/-- In every state that requests reach, in whatever order their calls are served, the domains are
validated. -/
theorem validated_of_run {trace : List (StudentLabel × StudentStage)} {y : StudentStage}
    (hs : Validated env s) (h : Run (studentServer env).Step ⟨s, []⟩ trace y) :
    Validated env y.state := by
  have hkept := h.invariant (J := fun x => Validated env x.state ∧
      ∀ task ∈ x.tasks, Passes env task.rest fun _ => True) ⟨hs, by simp⟩ ?_
  · exact hkept.1
  rintro x l z ⟨hx, htasks⟩ hstep
  cases hstep with
  | begin q =>
    refine ⟨hx, fun task hm => ?_⟩
    rcases List.mem_append.mp hm with hm | hm
    · exact htasks task hm
    · obtain rfl := List.mem_singleton.mp hm
      exact passes_handle q
  | act ht he =>
    have hnext := htasks _ (List.mem_of_getElem? ht)
    refine ⟨validated_of_mayServe hx hnext.1 he, fun task hm => ?_⟩
    rcases mem_set_cases hm with rfl | ⟨j, -, hj⟩
    · exact hnext.2 _ (readsPassed_of_mayServe hx he)
    · exact htasks task (List.mem_of_getElem? hj)
  | crash e ht hl =>
    refine ⟨hx, fun task hm => ?_⟩
    rcases mem_set_cases hm with rfl | ⟨j, -, hj⟩
    · trivial
    · exact htasks task (List.mem_of_getElem? hj)
  | change hc =>
    obtain ⟨t, rfl⟩ := hc
    exact ⟨hx, htasks⟩

end Runs

end CloudVM.Students
