import CloudVM.Framework.Requests
import CloudVM.Framework.Table
import CloudVM.Students.Service

/-!
# The tables of the user service

What each call does to the users, the universities and the pending codes when it is carried out.
Addresses, Google ids, names and domains have unique indexes, codes belong to a user that is
there. A call may fail, and then it may have been carried out all the same.
-/

namespace CloudVM.Students

structure StudentDb where
  users : Table User.id
  universities : Table University.id
  verifications : Table fun v : Verification => v.id
  clock : ℕ

namespace StudentDb

variable (s : StudentDb)

/-- The unique indexes of `users` leave room for the row. -/
def UserFits (row : User) : Prop :=
  ∀ u ∈ s.users.rows, u.id ≠ row.id →
    u.email ≠ row.email ∧ (row.googleId ≠ none → u.googleId ≠ row.googleId)

/-- The unique indexes of `universities` leave room for the row. -/
def UniversityFits (row : University) : Prop :=
  ∀ v ∈ s.universities.rows, v.id ≠ row.id → v.name ≠ row.name ∧ v.emailDomain ≠ row.emailDomain

def putUser (row : User) : StudentDb := { s with users := s.users.upsert row }

def putUniversity (row : University) : StudentDb :=
  { s with universities := s.universities.upsert row }

def eraseVerifications (p : Verification → Bool) : StudentDb :=
  { s with verifications := s.verifications.erase p }

end StudentDb

def User.update (u : User) (data : UpdateProfileDto) : User :=
  { u with
    firstName := data.firstName.getD u.firstName
    lastName := data.lastName.getD u.lastName
    email := data.email.getD u.email }

def SyncPayload.create (p : SyncPayload) : User where
  id := p.id
  email := p.email
  googleId := p.googleId.getD none |>.filter fun g => g ≠ ""
  firstName := p.firstName
  lastName := p.lastName
  role := p.role.getD .user
  isActive := p.isActive.getD true
  mfaEnabled := p.mfaEnabled.getD false
  mfaEnabledAt := p.mfaEnabledAt

def SyncPayload.update (p : SyncPayload) (u : User) : User :=
  { u with
    email := p.email
    googleId := p.googleId.getD u.googleId
    firstName := p.firstName
    lastName := p.lastName
    role := p.role.getD .user
    isActive := p.isActive.getD true
    mfaEnabled := p.mfaEnabled.getD false
    mfaEnabledAt := p.mfaEnabledAt }

def SyncPayload.row (p : SyncPayload) (s : StudentDb) : User :=
  match s.users.find? p.id with
  | some u => p.update u
  | none => p.create

/-- What a call does and answers when it is carried out. -/
def Call.Done (env : Env) : (c : Call) → StudentDb → c.Answer → StudentDb → Prop
  | .now, s, r, s' => r = s.clock ∧ s' = s
  | .randomCode, s, r, s' => (∃ n : ℕ, 100000 ≤ n ∧ n < 1000000 ∧ r = toString n) ∧ s' = s
  | .findUser userId, s, r, s' => r = .ok (s.users.find? userId) ∧ s' = s
  | .findUserByEmail email, s, r, s' =>
      r = .ok (s.users.rows.find? fun u => u.email = email) ∧ s' = s
  | .activeDomains, s, r, s' =>
      r = .ok ((s.universities.rows.filter fun v => v.isActive).map University.emailDomain) ∧ s' = s
  | .deleteVerifications userId, s, r, s' =>
      r = .ok () ∧ s' = s.eraseVerifications fun v => v.userId = userId
  | .createVerification data, s, r, s' =>
      s.users.find? data.userId ≠ none ∧ ∃ id hid, r = .ok () ∧
        s' = { s with verifications := s.verifications.insert ⟨data, id⟩ hid }
  | .sendCode _ _, s, r, s' => r = .ok () ∧ s' = s
  | .findVerification userId codeHash, s, r, s' =>
      r = .ok (s.verifications.rows.find? fun v => v.userId = userId ∧ v.codeHash = codeHash) ∧ s' = s
  | .deleteVerification id, s, r, s' =>
      s.verifications.find? id ≠ none ∧ r = .ok () ∧ s' = s.eraseVerifications fun v => v.id = id
  | .verifyUser userId time, s, r, s' =>
      ∃ u, s.users.find? userId = some u ∧ r = .ok () ∧
        s' = s.putUser { u with studentEmailVerified := true, studentEmailVerifiedAt := some time }
  | .updateUser userId data, s, r, s' =>
      ∃ u, s.users.find? userId = some u ∧ s.UserFits (u.update data) ∧
        r = .ok (u.update data) ∧ s' = s.putUser (u.update data)
  | .upsertUser payload, s, r, s' =>
      s.UserFits (payload.row s) ∧ r = .ok (payload.row s) ∧ s' = s.putUser (payload.row s)
  | .upsertUnlimitedQuota userId, s, r, s' => s.users.find? userId ≠ none ∧ r = .ok () ∧ s' = s
  | .findUniversity id, s, r, s' => r = .ok (s.universities.find? id) ∧ s' = s
  | .findUniversityLike other name emailDomain, s, r, s' =>
      r = .ok ((s.universities.rows.find? fun v =>
        other ≠ some v.id ∧ (v.name = name ∨ v.emailDomain = emailDomain)).map University.id) ∧ s' = s
  | .createUniversity name emailDomain createdBy, s, r, s' =>
      ∃ id, s.universities.find? id = none ∧
        s.UniversityFits { id, name, emailDomain, createdBy } ∧
        r = .ok { id, name, emailDomain, createdBy } ∧
        s' = s.putUniversity { id, name, emailDomain, createdBy }
  | .updateUniversity id name emailDomain, s, r, s' =>
      ∃ v, s.universities.find? id = some v ∧ s.UniversityFits { v with name, emailDomain } ∧
        r = .ok { v with name, emailDomain } ∧ s' = s.putUniversity { v with name, emailDomain }
  | .findVerifiedStudent emailDomain, s, r, s' =>
      r = .ok ((s.users.rows.find? fun u =>
        u.studentEmailVerified && endsWithDomain env u.email emailDomain).map User.id) ∧ s' = s
  | .deleteUniversity id, s, r, s' =>
      s.universities.find? id ≠ none ∧ r = .ok () ∧
        s' = { s with universities := s.universities.erase fun v => v.id = id }
  | .setUniversityActive id isActive, s, r, s' =>
      ∃ v, s.universities.find? id = some v ∧ r = .ok { v with isActive } ∧
        s' = s.putUniversity { v with isActive }

/-- An answer that reports a failure; the clock and the generator have none. -/
def Call.Fails : (c : Call) → c.Answer → Prop
  | .now, _ => False
  | .randomCode, _ => False
  | .findUser _, r => ∃ e, r = .error e
  | .findUserByEmail _, r => ∃ e, r = .error e
  | .activeDomains, r => ∃ e, r = .error e
  | .deleteVerifications _, r => ∃ e, r = .error e
  | .createVerification _, r => ∃ e, r = .error e
  | .sendCode _ _, r => ∃ e, r = .error e
  | .findVerification _ _, r => ∃ e, r = .error e
  | .deleteVerification _, r => ∃ e, r = .error e
  | .verifyUser _ _, r => ∃ e, r = .error e
  | .updateUser _ _, r => ∃ e, r = .error e
  | .upsertUser _, r => ∃ e, r = .error e
  | .upsertUnlimitedQuota _, r => ∃ e, r = .error e
  | .findUniversity _, r => ∃ e, r = .error e
  | .findUniversityLike _ _ _, r => ∃ e, r = .error e
  | .createUniversity _ _ _, r => ∃ e, r = .error e
  | .updateUniversity _ _ _, r => ∃ e, r = .error e
  | .findVerifiedStudent _, r => ∃ e, r = .error e
  | .deleteUniversity _, r => ∃ e, r = .error e
  | .setUniversityActive _ _, r => ∃ e, r = .error e

/-- How a call is answered: it is carried out, or it fails and may have been carried out. -/
def mayServe (env : Env) (c : Call) (s : StudentDb) (r : c.Answer) (s' : StudentDb) : Prop :=
  c.Done env s r s' ∨ (c.Fails r ∧ (s' = s ∨ ∃ r', c.Done env s r' s'))

abbrev StudentStage := Stage interface Failure Reply Request StudentDb

abbrev StudentLabel := StageLabel interface Request

/-- The user service; between its calls time passes. -/
def studentServer (env : Env) : Server interface Failure Reply Request StudentDb where
  handler := Request.handle env
  effect := fun _ _ c s r s' => mayServe env c s r s'
  change := fun s s' => ∃ t, s' = { s with clock := s.clock + t }

end CloudVM.Students
