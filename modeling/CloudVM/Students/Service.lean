import CloudVM.Common
import CloudVM.Framework.Pattern
import CloudVM.Framework.Process
import CloudVM.Framework.Text

/-!
# Student addresses in the user service

`requestStudentEmailVerification`, `confirmStudentEmailVerification`, `updateProfile`,
`syncFromAuth` and the administration of universities, as processes. Times are seconds.
-/

namespace CloudVM.Students

section Data

/-- A row of `users`. -/
structure User where
  id : String
  email : String
  googleId : Option String := none
  firstName : String
  lastName : String
  role : Role := .user
  isActive : Bool := true
  mfaEnabled : Bool := false
  mfaEnabledAt : Option ℕ := none
  studentEmailVerified : Bool := false
  studentEmailVerifiedAt : Option ℕ := none
deriving DecidableEq, Repr

structure University where
  id : String
  name : String
  emailDomain : String
  isActive : Bool := true
  createdBy : String
deriving DecidableEq, Repr

/-- `data` of `studentEmailVerification.create`. -/
structure VerificationData where
  userId : String
  email : String
  codeHash : String
  expiresAt : ℕ
deriving DecidableEq, Repr

structure Verification extends VerificationData where
  id : String
deriving DecidableEq, Repr

structure UpdateProfileDto where
  firstName : Option String := none
  lastName : Option String := none
  email : Option String := none
deriving DecidableEq, Repr

/-- What the auth service pushes. A Google id may be left out, or be null. -/
structure SyncPayload where
  id : String
  email : String
  googleId : Option (Option String) := none
  firstName : String
  lastName : String
  role : Option Role := none
  isActive : Option Bool := none
  mfaEnabled : Option Bool := none
  mfaEnabledAt : Option ℕ := none
deriving DecidableEq, Repr

structure CreateUniversityDto where
  name : String
  emailDomain : String
deriving DecidableEq, Repr

structure UpdateUniversityDto where
  name : Option String := none
  emailDomain : Option String := none
deriving DecidableEq, Repr

/-- `toLowerCase` and the hash. -/
structure Env where
  lower : String → String
  sha256 : String → String

inductive Reply where
  | message (text : String)
  | user (u : User)
  | university (u : University)
deriving DecidableEq, Repr

end Data

section Calls

inductive Call where
  | now
  | randomCode
  | findUser (userId : String)
  | findUserByEmail (email : String)
  | activeDomains
  | deleteVerifications (userId : String)
  | createVerification (data : VerificationData)
  | sendCode (email code : String)
  | findVerification (userId codeHash : String)
  | deleteVerification (id : String)
  | verifyUser (userId : String) (time : ℕ)
  | updateUser (userId : String) (data : UpdateProfileDto)
  | upsertUser (payload : SyncPayload)
  | upsertUnlimitedQuota (userId : String)
  | findUniversity (id : String)
  | findUniversityLike (other : Option String) (name emailDomain : String)
  | createUniversity (name emailDomain createdBy : String)
  | updateUniversity (id name emailDomain : String)
  | findVerifiedStudent (emailDomain : String)
  | deleteUniversity (id : String)
  | setUniversityActive (id : String) (isActive : Bool)

@[reducible] def Call.Answer : Call → Type
  | .now => ℕ
  | .randomCode => String
  | .findUser _ => Except Failure (Option User)
  | .findUserByEmail _ => Except Failure (Option User)
  | .activeDomains => Except Failure (List String)
  | .deleteVerifications _ => Except Failure Unit
  | .createVerification _ => Except Failure Unit
  | .sendCode _ _ => Except Failure Unit
  | .findVerification _ _ => Except Failure (Option Verification)
  | .deleteVerification _ => Except Failure Unit
  | .verifyUser _ _ => Except Failure Unit
  | .updateUser _ _ => Except Failure User
  | .upsertUser _ => Except Failure User
  | .upsertUnlimitedQuota _ => Except Failure Unit
  | .findUniversity _ => Except Failure (Option University)
  | .findUniversityLike _ _ _ => Except Failure (Option String)
  | .createUniversity _ _ _ => Except Failure University
  | .updateUniversity _ _ _ => Except Failure University
  | .findVerifiedStudent _ => Except Failure (Option String)
  | .deleteUniversity _ => Except Failure Unit
  | .setUniversityActive _ _ => Except Failure University

@[reducible] def interface : Interface where
  Call := Call
  Answer := Call.Answer

abbrev StudentProcess (α : Type) := Process interface Failure α

def now : StudentProcess ℕ := .call .now .ret

def randomCode : StudentProcess String := .call .randomCode .ret

def findUser (userId : String) : StudentProcess (Option User) := .call (.findUser userId) .ofExcept

def findUserByEmail (email : String) : StudentProcess (Option User) :=
  .call (.findUserByEmail email) .ofExcept

def activeDomains : StudentProcess (List String) := .call .activeDomains .ofExcept

def deleteVerifications (userId : String) : StudentProcess Unit :=
  .call (.deleteVerifications userId) .ofExcept

def createVerification (data : VerificationData) : StudentProcess Unit :=
  .call (.createVerification data) .ofExcept

def sendCode (email code : String) : StudentProcess Unit := .call (.sendCode email code) .ofExcept

def findVerification (userId codeHash : String) : StudentProcess (Option Verification) :=
  .call (.findVerification userId codeHash) .ofExcept

def deleteVerification (id : String) : StudentProcess Unit :=
  .call (.deleteVerification id) .ofExcept

def verifyUser (userId : String) (time : ℕ) : StudentProcess Unit :=
  .call (.verifyUser userId time) .ofExcept

def updateUser (userId : String) (data : UpdateProfileDto) : StudentProcess User :=
  .call (.updateUser userId data) .ofExcept

def upsertUser (payload : SyncPayload) : StudentProcess User := .call (.upsertUser payload) .ofExcept

def upsertUnlimitedQuota (userId : String) : StudentProcess Unit :=
  .call (.upsertUnlimitedQuota userId) .ofExcept

def findUniversity (id : String) : StudentProcess (Option University) :=
  .call (.findUniversity id) .ofExcept

def findUniversityLike (other : Option String) (name emailDomain : String) :
    StudentProcess (Option String) := .call (.findUniversityLike other name emailDomain) .ofExcept

def findVerifiedStudent (emailDomain : String) : StudentProcess (Option String) :=
  .call (.findVerifiedStudent emailDomain) .ofExcept

end Calls

section Verification

variable (env : Env)

/-- The address ends with the domain, in any letter case. -/
def endsWithDomain (email emailDomain : String) : Bool :=
  Text.endsWith (env.lower email) (env.lower emailDomain)

def isStudentEmail (email : String) : StudentProcess Bool := do
  let domains ← activeDomains
  pure (domains.any (endsWithDomain env email))

def requestStudentEmailVerification (userId : String) : StudentProcess Reply := do
  match ← findUser userId with
  | none => throw ⟨.notFound, "User not found"⟩
  | some user =>
    if ← isStudentEmail env user.email then
      if user.studentEmailVerified then pure (.message "Student email is already verified.")
      else
        let code ← randomCode
        let t ← now
        deleteVerifications userId
        createVerification
          { userId, email := user.email, codeHash := env.sha256 code, expiresAt := t + 900 }
        sendCode user.email code
        pure (.message "Verification code sent to your email.")
    else throw ⟨.badRequest, "Your email address does not belong to a recognised student domain."⟩

def confirmStudentEmailVerification (userId code : String) : StudentProcess Reply := do
  if code = "" then throw ⟨.badRequest, "Verification code is required."⟩
  else
    match ← findVerification userId (env.sha256 (Text.jsTrim code)) with
    | none => throw ⟨.badRequest, "Invalid verification code."⟩
    | some record =>
      let t ← now
      if record.expiresAt < t then
        deleteVerification record.id
        throw ⟨.badRequest, "Verification code has expired. Please request a new one."⟩
      else
        let verifiedAt ← now
        verifyUser userId verifiedAt
        deleteVerifications userId
        pure (.message "Student email verified successfully.")

end Verification

section Accounts

def updateProfile (userId : String) (dto : UpdateProfileDto) : StudentProcess Reply := do
  match dto.email.filter fun e => e ≠ "" with
  | some email =>
    let existing ← findUserByEmail email
    if existing.any fun u => u.id ≠ userId then throw ⟨.conflict, "Email already in use"⟩
    else
      let user ← updateUser userId dto
      pure (.user user)
  | none =>
    let user ← updateUser userId dto
    pure (.user user)

def syncFromAuth (payload : SyncPayload) : StudentProcess Reply := do
  let user ← upsertUser payload
  if payload.role = some .admin then
    upsertUnlimitedQuota user.id
    pure (.user user)
  else pure (.user user)

end Accounts

section Universities

variable (env : Env)

open Pattern in
/-- `/^[@.][a-z0-9.-]+\.[a-z]{2,}$/`. -/
def domainFormat : Pattern Char :=
  let letter (c : Char) : Bool := 'a' ≤ c && c ≤ 'z'
  let dot (c : Char) : Bool := c == '.'
  let first (c : Char) : Bool := c == '@' || dot c
  let inner (c : Char) : Bool := letter c || c.isDigit || dot c || c == '-'
  Pattern.all [start, one first, plus (one inner), one dot, one letter, plus (one letter), stop]

def validateUniversityDomain (domain : String) : Except Failure String :=
  if domain = "" then .error ⟨.badRequest, "Email domain is required."⟩
  else if domain ≠ env.lower domain then
    .error ⟨.badRequest, "Email domain must be lowercase."⟩
  else if Text.contains domain " " then
    .error ⟨.badRequest, "Email domain must not contain spaces."⟩
  else if domainFormat.test domain.toList then .ok domain
  else .error ⟨.badRequest,
    "Email domain must start with @ or . and match the expected university format."⟩

def assertAdminUser (adminId : String) : StudentProcess Unit := do
  let admin ← findUser adminId
  if admin.any fun u => u.role = .admin then pure ()
  else throw ⟨.forbidden, "Admin role required"⟩

def existingUniversity (id : String) : StudentProcess University := do
  match ← findUniversity id with
  | some university => pure university
  | none => throw ⟨.notFound, "University not found"⟩

/-- `normalizeUniversityDomain` is the trimming. -/
def checkedDomain (domain : String) : StudentProcess String :=
  .ofExcept (validateUniversityDomain env (Text.jsTrim domain))

def createUniversity (dto : CreateUniversityDto) (adminId : String) : StudentProcess Reply := do
  assertAdminUser adminId
  let name := Text.jsTrim dto.name
  let emailDomain ← checkedDomain env dto.emailDomain
  let existing ← findUniversityLike none name emailDomain
  if existing.isSome then
    throw ⟨.conflict, "University name or email domain already exists."⟩
  else
    let university ← .call (.createUniversity name emailDomain adminId) .ofExcept
    pure (.university university)

def updateUniversity (id : String) (dto : UpdateUniversityDto) (adminId : String) :
    StudentProcess Reply := do
  assertAdminUser adminId
  let university ← existingUniversity id
  let name := (dto.name.map Text.jsTrim).getD university.name
  let emailDomain ← match dto.emailDomain with
    | some domain => checkedDomain env domain
    | none => pure university.emailDomain
  let duplicate ← findUniversityLike (some id) name emailDomain
  if duplicate.isSome then
    throw ⟨.conflict, "University name or email domain already exists."⟩
  else
    let updated ← .call (.updateUniversity id name emailDomain) .ofExcept
    pure (.university updated)

def deleteUniversity (id adminId : String) : StudentProcess Reply := do
  assertAdminUser adminId
  let university ← existingUniversity id
  let verifiedStudent ← findVerifiedStudent university.emailDomain
  if verifiedStudent.isSome then
    throw ⟨.conflict, "This university cannot be deleted because verified students still use " ++
      "this email domain."⟩
  else
    let _ ← (.call (.deleteUniversity id) .ofExcept : StudentProcess Unit)
    pure (.message "University deleted successfully")

def toggleUniversityActive (id adminId : String) : StudentProcess Reply := do
  assertAdminUser adminId
  let university ← existingUniversity id
  let updated ← .call (.setUniversityActive id !university.isActive) .ofExcept
  pure (.university updated)

end Universities

inductive Request where
  | requestVerification (userId : String)
  | confirmVerification (userId code : String)
  | updateProfile (userId : String) (dto : UpdateProfileDto)
  | syncFromAuth (payload : SyncPayload)
  | createUniversity (dto : CreateUniversityDto) (adminId : String)
  | updateUniversity (id : String) (dto : UpdateUniversityDto) (adminId : String)
  | deleteUniversity (id adminId : String)
  | toggleUniversityActive (id adminId : String)

def Request.handle (env : Env) : Request → StudentProcess Reply
  | .requestVerification userId => requestStudentEmailVerification env userId
  | .confirmVerification userId code => confirmStudentEmailVerification env userId code
  | .updateProfile userId dto => Students.updateProfile userId dto
  | .syncFromAuth payload => Students.syncFromAuth payload
  | .createUniversity dto adminId => Students.createUniversity env dto adminId
  | .updateUniversity id dto adminId => Students.updateUniversity env id dto adminId
  | .deleteUniversity id adminId => Students.deleteUniversity id adminId
  | .toggleUniversityActive id adminId => Students.toggleUniversityActive id adminId

end CloudVM.Students
