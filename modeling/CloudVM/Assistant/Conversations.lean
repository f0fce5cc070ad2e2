import CloudVM.Assistant.Completion
import CloudVM.Framework.Requests
import CloudVM.Framework.Table

/-!
# Conversations

The AI service as a server: the requests of its controller as processes over the tables of
conversations and messages, the services it asks and the providers. Times are in seconds.
-/

namespace CloudVM.Conversations

open Access Assistant Process

section Data

/-- A row of `ai_conversations`. -/
structure Conversation where
  id : String
  userId : String
  title : Option String
  createdAt : ℕ
  updatedAt : ℕ
deriving DecidableEq, Repr

/-- A row of `ai_messages` with all its columns. -/
structure Message extends MessageRow where
  provider : Option String := none
  model : Option String := none
deriving DecidableEq, Repr

abbrev Message.key (m : Message) : String := m.id

/-- `data` of `message.create`. -/
structure NewMessage where
  conversationId : String
  role : MessageRole
  content : String
  provider : Option String := none
  model : Option String := none
deriving DecidableEq, Repr

def NewMessage.row (data : NewMessage) (id : String) (createdAt : ℕ) : Message where
  id := id
  conversationId := data.conversationId
  role := data.role
  content := data.content
  createdAt := createdAt
  provider := data.provider
  model := data.model

/-- The entries of `history` have a role and a text. -/
structure ChatRequestDto where
  message : String
  conversationId : Option String := none
  includeContext : Option Bool := none
  history : Option (List (ProviderRole × String)) := none
  images : Option (List String) := none
deriving DecidableEq, Repr

structure ChatReply (Token : Type) where
  conversationId : String
  message : Message
  pendingAction : Option (PendingAction Token) := none

end Data

section Calls

inductive DbCall where
  | createConversation (userId title : String)
  | listConversations (userId : String)
  | findConversation (id userId : String)
  | findMessages (conversationId : String) (take : Option ℕ)
  | createMessage (data : NewMessage)
deriving DecidableEq, Repr

/-- What a call to the database yields. Conversations are listed with the number of messages. -/
@[reducible] def DbCall.Row : DbCall → Type
  | .createConversation _ _ => Conversation
  | .listConversations _ => List (Conversation × ℕ)
  | .findConversation _ _ => Option Conversation
  | .findMessages _ _ => List Message
  | .createMessage _ => Message

inductive AiCall (Token : Type) where
  | now
  | db (c : DbCall)
  | fetchContext (token : Token)
  | postAction (request : ActionRequest Token)
  | complete (request : ProviderRequest)

/-- The body of an answer of the other services may be unreadable. -/
@[reducible] def AiCall.Answer {Token : Type} : AiCall Token → Type
  | .now => ℕ
  | .db c => Except Failure c.Row
  | .fetchContext _ => Except Failure ContextAnswers
  | .postAction _ => Except Failure ActionAnswer
  | .complete _ => ProviderAnswer

@[reducible] def aiInterface (Token : Type) : Interface where
  Call := AiCall Token
  Answer := AiCall.Answer

abbrev AiProcess (Token α : Type) := Process (aiInterface Token) Failure α

end Calls

section Handlers

variable {Token : Type}

def db (c : DbCall) : AiProcess Token c.Row := .call (.db c) .ofExcept

def now : AiProcess Token ℕ := .call .now .ret

def ofProvider {α : Type} (p : ProviderProcess α) : AiProcess Token α :=
  p.lift AiCall.complete fun _ r => r

structure AiEnv (Token : Type) where
  service : AiService Token
  providers : ProviderSettings := {}
  maxImageBytes : ℕ := 1048576

variable (env : AiEnv Token)

def createConversation (user : CurrentUser) (title : Option String) :
    AiProcess Token Conversation :=
  db (.createConversation user.userId ((truthy (title.map Text.jsTrim)).getD "New conversation"))

def listConversations (user : CurrentUser) : AiProcess Token (List (Conversation × ℕ)) :=
  db (.listConversations user.userId)

def ensureConversationOwner (conversationId userId : String) : AiProcess Token Conversation := do
  match ← db (.findConversation conversationId userId) with
  | none => throw ⟨.notFound, "Conversation not found"⟩
  | some conversation => pure conversation

def getMessages (user : CurrentUser) (conversationId : String) :
    AiProcess Token (Conversation × List Message) := do
  let conversation ← ensureConversationOwner conversationId user.userId
  let messages ← db (.findMessages conversation.id none)
  pure (conversation, messages)

def resolveConversationId (userId : String) (dto : ChatRequestDto) : AiProcess Token String := do
  match truthy dto.conversationId with
  | none =>
    let title := String.ofList (Pieces.sliceTo 60 dto.message.toList)
    let created ← db (.createConversation userId title)
    pure created.id
  | some conversationId =>
    let conversation ← ensureConversationOwner conversationId userId
    pure conversation.id

def fetchAppContext (user : CurrentUser) : AiProcess Token AppContext := do
  let t ← now
  let token ← .ofExcept (createInternalToken env.service user t)
  let answers ← .call (.fetchContext token) .ofExcept
  .ofExcept (Assistant.fetchAppContext env.service user t fun _ => answers)

def detectPendingAction (message : String) (user : CurrentUser) (vms : List VmContextItem) :
    AiProcess Token (Option (PendingAction Token)) := do
  let t ← now
  .ofExcept (Assistant.detectPendingAction env.service message user vms t)

def historyMessages (dto : ChatRequestDto) : List ProviderMessage :=
  (dto.history.getD []).map fun item => { role := item.1, content := item.2 }

/-- The stored messages, which are asked for only if the request brings no history. -/
def latestMessages (conversationId : String) (history : List ProviderMessage) :
    AiProcess Token (List Message) :=
  if history.isEmpty then db (.findMessages conversationId (some 20)) else .ret []

def buildPromptMessages (user : CurrentUser) (conversationId : String) (dto : ChatRequestDto)
    (ctx : AppContext) (images : List String) (promptInjectionDetected : Bool) :
    AiProcess Token (List ProviderMessage) := do
  let history := historyMessages dto
  let latest ← latestMessages conversationId history
  pure (Assistant.buildPromptMessages user history (dto.includeContext ≠ some false) ctx images
    promptInjectionDetected (latest.map Message.toMessageRow))

def pendingText (pendingAction : PendingAction Token) : String :=
  let action := pendingAction.action.name.toUpper
  let vmName := pendingAction.vmName
  s!"I can {action} VM '{vmName}'. Please confirm to execute this safe action."

def storeAnswer (conversationId : String) (result : ProviderChatResult) : AiProcess Token Message :=
  db (.createMessage {
    conversationId
    role := .assistant
    content := result.content
    provider := some result.provider
    model := some result.model })

/-- What the assistant says to a message that has been stored. -/
def answer (user : CurrentUser) (conversationId sanitizedMessage : String) (dto : ChatRequestDto)
    (appContext : AppContext) (pendingAction : Option (PendingAction Token)) :
    AiProcess Token (ChatReply Token) := do
  match pendingAction with
  | some pendingAction =>
    let message ← storeAnswer conversationId
      ⟨"policy-engine", "safe-action-confirmation", pendingText pendingAction⟩
    pure { conversationId, message, pendingAction := some pendingAction }
  | none =>
    if isOutOfScopeQuestion env.service.toLowerCase sanitizedMessage then
      let message ← storeAnswer conversationId
        ⟨"policy-engine", "platform-scope-guard", buildOutOfScopeResponse⟩
      pure { conversationId, message }
    else
      let images := sanitizeImages env.maxImageBytes dto.images
      let promptMessages ← buildPromptMessages user conversationId dto appContext images
        (detectPromptInjection sanitizedMessage)
      let completion ← ofProvider (generateCompletion env.providers promptMessages !images.isEmpty)
      let message ← storeAnswer conversationId completion
      pure { conversationId, message }

def chat (user : CurrentUser) (dto : ChatRequestDto) : AiProcess Token (ChatReply Token) := do
  let sanitizedMessage := sanitizeUserMessage dto.message
  let conversationId ← resolveConversationId user.userId dto
  let appContext ← fetchAppContext env user
  let pendingAction ← detectPendingAction env sanitizedMessage user appContext.vms
  let _ ← db (.createMessage { conversationId, role := .user, content := sanitizedMessage })
  answer env user conversationId sanitizedMessage dto appContext pendingAction

/-- What is made of the answer of the VM service. -/
def confirmed (payload : JwtPayload) : ActionAnswer → Except Failure Confirmed
  | .unavailable => .error ⟨.other, "VM service is unavailable"⟩
  | .refused body =>
    let action := payload.action.getD "undefined"
    let vmName := payload.vmName.getD "undefined"
    let sanitized := String.ofList (Pieces.sliceTo 300 (flatten body.toList))
    .error ⟨.badRequest, s!"Failed to execute action '{action}' for VM '{vmName}'" ++
      if sanitized = "" then "" else ": " ++ sanitized⟩
  | .done message =>
    let action := payload.action.getD "undefined"
    let vmName := payload.vmName.getD "undefined"
    .ok ⟨payload.action, payload.vmId, payload.vmName,
      (truthy message).getD s!"Action '{action}' was submitted for VM '{vmName}'."⟩

def confirmAction (user : CurrentUser) (confirmationToken : Token)
    (conversationId : Option String) : AiProcess Token Confirmed := do
  let t ← now
  let (payload, request) ← .ofExcept (actionRequest env.service user confirmationToken t)
  let reply ← .call (.postAction request) .ofExcept
  let result ← .ofExcept (confirmed payload reply)
  match truthy conversationId with
  | none => pure result
  | some conversationId =>
    let _ ← ensureConversationOwner conversationId user.userId
    let _ ← storeAnswer conversationId ⟨"vm-service", "action-executor", result.message⟩
    pure result

inductive AiAction (Token : Type) where
  | createConversation (title : Option String)
  | listConversations
  | getMessages (conversationId : String)
  | chat (dto : ChatRequestDto)
  | confirmAction (confirmationToken : Token) (conversationId : Option String)

/-- A request with the user it was authenticated for. -/
structure AiRequest (Token : Type) where
  user : CurrentUser
  action : AiAction Token

inductive AiReply (Token : Type) where
  | conversation (row : Conversation)
  | conversations (rows : List (Conversation × ℕ))
  | messages (row : Conversation) (messages : List Message)
  | chat (reply : ChatReply Token)
  | confirmed (result : Confirmed)

def AiRequest.handle (q : AiRequest Token) : AiProcess Token (AiReply Token) :=
  match q.action with
  | .createConversation title => do pure (.conversation (← createConversation q.user title))
  | .listConversations => do pure (.conversations (← listConversations q.user))
  | .getMessages conversationId => do
    let (row, messages) ← getMessages q.user conversationId
    pure (.messages row messages)
  | .chat dto => do pure (.chat (← chat env q.user dto))
  | .confirmAction confirmationToken conversationId => do
    pure (.confirmed (← confirmAction env q.user confirmationToken conversationId))

end Handlers

section Store

/-- The tables of the AI service. A message belongs to a conversation that is there. -/
structure ConversationStore where
  conversations : Table Conversation.id
  messages : Table Message.key
  clock : ℕ
  linked : ∀ m ∈ messages.rows, ∃ c ∈ conversations.rows, c.id = m.conversationId

namespace ConversationStore

theorem ext_rows {s t : ConversationStore} (hc : s.conversations.rows = t.conversations.rows)
    (hm : s.messages.rows = t.messages.rows) (hclock : s.clock = t.clock) : s = t := by
  obtain ⟨sc, sm, sclock, slinked⟩ := s
  obtain ⟨tc, tm, tclock, tlinked⟩ := t
  obtain rfl := Table.ext_rows hc
  obtain rfl := Table.ext_rows hm
  obtain rfl := hclock
  rfl

variable (s : ConversationStore)

def messagesOf (conversationId : String) : List Message :=
  s.messages.rows.filter fun m => m.conversationId = conversationId

/-- The tables with more rows; nothing else of the state is written. -/
structure Grows (s : ConversationStore) (conversations : List Conversation)
    (messages : List Message) (s' : ConversationStore) : Prop where
  conversations : s'.conversations.rows = s.conversations.rows ++ conversations
  messages : s'.messages.rows = s.messages.rows ++ messages
  clock : s'.clock = s.clock

end ConversationStore

/-- What a call to the database yields and does when it is carried out. -/
def DbCall.Done : (c : DbCall) → ConversationStore → c.Row → ConversationStore → Prop
  | .createConversation userId title, s, row, s' =>
    row.userId = userId ∧ row.title = some title ∧ row.createdAt = s.clock ∧
      row.updatedAt = s.clock ∧ s.conversations.find? row.id = none ∧ s.Grows [row] [] s'
  | .listConversations userId, s, rows, s' =>
    (rows.map Prod.fst).Perm (s.conversations.rows.filter fun c => c.userId = userId) ∧
      (rows.map Prod.fst).Pairwise (fun a b => b.updatedAt ≤ a.updatedAt) ∧
      (∀ e ∈ rows, e.2 = (s.messagesOf e.1.id).length) ∧ s' = s
  | .findConversation id userId, s, row, s' =>
    row = s.conversations.rows.find? (fun c => c.id = id ∧ c.userId = userId) ∧ s' = s
  | .findMessages conversationId take, s, rows, s' =>
    (∃ ordered : List Message, ordered.Perm (s.messagesOf conversationId) ∧
      ordered.Pairwise (fun a b => a.createdAt ≤ b.createdAt) ∧
      rows = match take with | none => ordered | some n => ordered.take n) ∧ s' = s
  | .createMessage data, s, row, s' =>
    row = data.row row.id s.clock ∧ (∃ c ∈ s.conversations.rows, c.id = data.conversationId) ∧
      s.messages.find? row.id = none ∧ s.Grows [] [row] s'

/-- How a call is answered: it is carried out, or it fails and may have been carried out. What
comes back from elsewhere is not known. -/
def aiEffect {Token : Type} :
    (c : AiCall Token) → ConversationStore → c.Answer → ConversationStore → Prop
  | .now, s, r, s' => r = s.clock ∧ s' = s
  | .db c, s, r, s' =>
    (∃ row, r = .ok row ∧ c.Done s row s') ∨
      ∃ e, r = .error e ∧ (s' = s ∨ ∃ row, c.Done s row s')
  | .fetchContext _, s, _, s' => s' = s
  | .postAction _, s, _, s' => s' = s
  | .complete _, s, _, s' => s' = s

/-- The AI service; between its calls time passes. -/
def aiServer {Token : Type} (env : AiEnv Token) :
    Server (aiInterface Token) Failure (AiReply Token) (AiRequest Token) ConversationStore where
  handler := AiRequest.handle env
  effect := fun _ _ c s r s' => aiEffect c s r s'
  change := fun s s' => ∃ t, s' = { s with clock := s.clock + t }

end Store

end CloudVM.Conversations
