import CloudVM.Access.Entrances

/-!
# The assistant

What the AI service makes of a chat message: it may propose to start, stop or restart a VM of the
list it fetched, and signs the proposal. A confirmation turns the signed proposal into a request to
the VM service. Both calls mint a token of their own for the services they ask. Tokens are
abstract; lower-casing and signing are parameters.
-/

namespace CloudVM.Assistant

open Access Text

section Data

inductive SafeAction where
  | start
  | stop
  | restart
deriving DecidableEq, Repr

def SafeAction.name : SafeAction → String
  | .start => "start"
  | .stop => "stop"
  | .restart => "restart"

structure VmContextItem where
  id : String
  name : String
  status : String
deriving DecidableEq, Repr

/-- What a signed token may claim; a claim can be missing. -/
structure JwtPayload where
  sub : Option String := none
  email : Option String := none
  role : Option String := none
  fp : Option String := none
  vmId : Option String := none
  vmName : Option String := none
  action : Option String := none
deriving DecidableEq, Repr

structure PendingAction (Token : Type) where
  action : SafeAction
  vmId : String
  vmName : String
  confirmationToken : Token
deriving DecidableEq, Repr

/-- The configuration and the library functions the service uses. Times are in seconds. -/
structure AiService (Token : Type) where
  actionConfirmSecret : String
  jwtSecret : String
  toLowerCase : String → String
  sign : JwtPayload → (secret : String) → (expiresAt : ℕ) → Token
  verify : Token → (secret : String) → (now : ℕ) → Option JwtPayload

def AiService.Sealed {Token : Type} (S : AiService Token) : Prop :=
  ∀ payload secret expiresAt secret' now payload',
    S.verify (S.sign payload secret expiresAt) secret' now = some payload' → payload' = payload

end Data

section Text

/-- `/[\u0000-\u001F\u007F]/`. -/
def isControl (c : Char) : Bool := c.toNat ≤ 0x1f || c.toNat == 0x7f

/-- `replace(/\s+/g, " ")`. -/
def collapseSpace : List Char → List Char
  | [] => []
  | c :: cs =>
      let rest := collapseSpace cs
      if jsSpace c then
        match rest with
        | ' ' :: _ => rest
        | _ => ' ' :: rest
      else c :: rest

def sanitizeUserMessage (input : String) : String :=
  jsTrim (String.ofList (collapseSpace
    (input.toList.map fun c => if isControl c then ' ' else c)))

def isHex (c : Char) : Bool :=
  ('0' ≤ c && c ≤ '9') || ('a' ≤ c && c ≤ 'f') || ('A' ≤ c && c ≤ 'F')

/-- `[0-9a-f]{8}-[0-9a-f]{4}-[1-5][0-9a-f]{3}-[89ab][0-9a-f]{3}-[0-9a-f]{12}`, with the flag `i`. -/
def uuidClasses : List (Char → Bool) :=
  let hex n : List (Char → Bool) := List.replicate n isHex
  let dash : List (Char → Bool) := [(· == '-')]
  hex 8 ++ dash ++ hex 4 ++ dash ++ [fun c => '1' ≤ c && c ≤ '5'] ++ hex 3 ++ dash ++
    [fun c => "89abAB".toList.contains c] ++ hex 3 ++ dash ++ hex 12

/-- `uuidRegex.test`. -/
def isUuid (s : String) : Bool := matchClasses uuidClasses s.toList = some []

def findUuid (message : String) : Option String :=
  (message.toList.tails.find? fun t => (matchClasses uuidClasses t).isSome).map fun t =>
    String.ofList (t.take 36)

end Text

section Tokens

variable {Token : Type} (S : AiService Token)

def createInternalToken (user : CurrentUser) (now : ℕ) : Except Failure Token :=
  if S.jwtSecret = "" then .error ⟨.other, "Internal JWT secret is not configured"⟩
  else .ok (S.sign { sub := some user.userId, email := some user.email, role := some user.role }
    S.jwtSecret (now + 300))

def confirmationPayload (user : CurrentUser) (vmId vmName : String) (action : SafeAction) :
    JwtPayload where
  sub := some user.userId
  vmId := some vmId
  vmName := some vmName
  action := some action.name

def createActionConfirmationToken (user : CurrentUser) (vmId vmName : String)
    (action : SafeAction) (now : ℕ) : Option Token :=
  if S.actionConfirmSecret = "" then none
  else some (S.sign (confirmationPayload user vmId vmName action) S.actionConfirmSecret
    (now + 180))

/-- What is tested is the text of the value: a missing one reads `undefined`. -/
def validateStructuredAction (vmId action userId : Option String) (expectedUserId : String) :
    Except Failure Unit :=
  if !isUuid (vmId.getD "undefined") then
    .error ⟨.badRequest, "Invalid VM action payload: vmId must be a UUID"⟩
  else if !(["start", "stop", "restart"].map some).contains action then
    .error ⟨.badRequest, "Invalid VM action payload: action is not allowed"⟩
  else if userId ≠ some expectedUserId then
    .error ⟨.unauthorized, "Invalid VM action payload: user mismatch"⟩
  else .ok ()

end Tokens

section Chat

variable {Token : Type} (S : AiService Token)

def detectAction (lower : String) : Option SafeAction :=
  if contains lower "restart" || contains lower "reboot" then some .restart
  else if contains lower "start" then some .start
  else if contains lower "stop" then some .stop
  else none

def findTarget (message : String) (vms : List VmContextItem) : Option VmContextItem :=
  let lower := S.toLowerCase message
  let byId := (findUuid message).bind fun id => vms.find? fun vm => vm.id = id
  byId.or (vms.find? fun vm => contains lower (S.toLowerCase vm.name))

def detectPendingAction (message : String) (user : CurrentUser) (vms : List VmContextItem)
    (now : ℕ) : Except Failure (Option (PendingAction Token)) :=
  match detectAction (S.toLowerCase message) with
  | none => .ok none
  | some action =>
      match findTarget S message vms with
      | none => .ok none
      | some byName =>
          match createActionConfirmationToken S user byName.id byName.name action now with
          | none => .ok none
          | some confirmationToken => do
              validateStructuredAction (some byName.id) (some action.name) (some user.userId)
                user.userId
              pure (some { action, vmId := byName.id, vmName := byName.name, confirmationToken })

/-- The answer of a service: missing if the request failed, and its body if it is fine. -/
abbrev FetchAnswer (β : Type) := Option (Option β)

structure VmStats where
  total : ℤ := 0
  running : ℤ := 0
  stopped : ℤ := 0
  pending : ℤ := 0
  error : ℤ := 0
deriving DecidableEq, Repr

structure UserQuota where
  maxVms : ℤ
  maxCpu : ℤ
  maxRamMb : ℤ
  maxDiskGb : ℤ
deriving DecidableEq, Repr

structure AppContext where
  vmStats : VmStats := {}
  vms : List VmContextItem := []
  userQuota : Option UserQuota := none
deriving DecidableEq, Repr

/-- The answers to the three requests for the context. -/
structure ContextAnswers where
  stats : FetchAnswer VmStats
  vms : FetchAnswer (List VmContextItem)
  profile : FetchAnswer (Option UserQuota)

/-- The token that is sent, and what is made of the answers to it. -/
def fetchAppContext (user : CurrentUser) (now : ℕ) (services : Token → ContextAnswers) :
    Except Failure AppContext := do
  let token ← createInternalToken S user now
  let answers := services token
  pure {
    vmStats := answers.stats.join.getD {}
    vms := answers.vms.join.getD []
    userQuota := (answers.profile.join).join }

/-- What a chat call finds outside: the conversation, the answers of the services, the storing of
the two messages, and the completion of a model. -/
structure ChatSurroundings (Token : Type) where
  conversation : Except Failure String
  services : Token → ContextAnswers
  stored : Except Failure Unit
  answered : Except Failure Unit
  completed : Except Failure Unit

def chat (user : CurrentUser) (message : String) (now : ℕ) (env : ChatSurroundings Token) :
    Except Failure (Option (PendingAction Token)) := do
  let sanitizedMessage := sanitizeUserMessage message
  let _ ← env.conversation
  let appContext ← fetchAppContext S user now env.services
  let pendingAction ← detectPendingAction S sanitizedMessage user appContext.vms now
  env.stored
  match pendingAction with
  | some pendingAction => do
      env.answered
      pure (some pendingAction)
  | none => do
      env.completed
      env.answered
      pure none

end Chat

section Confirmation

variable {Token : Type} (S : AiService Token)

/-- A request to the VM service. -/
structure ActionRequest (Token : Type) where
  path : String
  token : Token
  action : Option String
deriving DecidableEq

/-- `confirmAction` up to the request it sends. -/
def actionRequest (user : CurrentUser) (confirmationToken : Token) (now : ℕ) :
    Except Failure (JwtPayload × ActionRequest Token) :=
  if S.actionConfirmSecret = "" then
    .error ⟨.other, "Action confirmation secret is not configured"⟩
  else
    match S.verify confirmationToken S.actionConfirmSecret now with
    | none => .error ⟨.unauthorized, "Invalid or expired confirmation token"⟩
    | some payload =>
        if payload.sub ≠ some user.userId then
          .error ⟨.unauthorized, "Confirmation token does not belong to current user"⟩
        else do
          validateStructuredAction payload.vmId payload.action payload.sub user.userId
          let token ← createInternalToken S user now
          pure (payload, {
            path := "/vms/" ++ payload.vmId.getD "undefined" ++ "/action"
            token
            action := payload.action })

/-- What is done with the answer of the VM service: it was not reached, it refused with a text, or
it has a message. -/
inductive ActionAnswer where
  | unavailable
  | refused (body : String)
  | done (message : Option String)
deriving DecidableEq, Repr

structure Confirmed where
  action : Option String
  vmId : Option String
  vmName : Option String
  message : String
deriving DecidableEq, Repr

/-- `raw.replace(/[\r\n]+/g, " ").slice(0, 300)`. -/
def flatten : List Char → List Char
  | [] => []
  | c :: cs =>
      if c = '\r' ∨ c = '\n' then
        match cs with
        | '\r' :: _ => flatten cs
        | '\n' :: _ => flatten cs
        | _ => ' ' :: flatten cs
      else c :: flatten cs

def confirmAction (user : CurrentUser) (confirmationToken : Token) (now : ℕ)
    (vmService : ActionRequest Token → ActionAnswer) (stored : Except Failure Unit) :
    Except Failure Confirmed := do
  let (payload, request) ← actionRequest S user confirmationToken now
  let action := payload.action.getD "undefined"
  let vmName := payload.vmName.getD "undefined"
  match vmService request with
  | .unavailable => throw ⟨.other, "VM service is unavailable"⟩
  | .refused body =>
      let sanitized := String.ofList ((flatten body.toList).take 300)
      throw ⟨.badRequest, "Failed to execute action '" ++ action ++ "' for VM '" ++ vmName ++ "'" ++
        if sanitized = "" then "" else ": " ++ sanitized⟩
  | .done message => do
      let assistantText := (truthy message).getD
        ("Action '" ++ action ++ "' was submitted for VM '" ++ vmName ++ "'.")
      stored
      pure ⟨payload.action, payload.vmId, payload.vmName, assistantText⟩

end Confirmation

end CloudVM.Assistant
