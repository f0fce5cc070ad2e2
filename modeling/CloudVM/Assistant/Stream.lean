import CloudVM.Assistant.Conversations
import CloudVM.Framework.Pieces
import CloudVM.Framework.Run

/-!
# Answers on a socket

The socket gateway of the AI service sends an answer in pieces, and the page of the assistant puts
them together in a message it has added for them. The connection keeps the order of the events
and may lose all that are on their way; the page may give up, ask again, load a history or clear
its messages at any time.
-/

namespace CloudVM.Conversations

open Access Assistant Text

section Gateway

/-- What is read of a message to the gateway; a text that is no string is missing. -/
structure AiChatPayload where
  requestId : Option String
  message : Option String
  conversationId : Option String := none
  includeContext : Option Bool := none
  images : Option (List String) := none
deriving DecidableEq, Repr

structure AiStreamMeta (Token : Type) where
  requestId : String
  conversationId : String
  messageId : String
  provider : Option String
  model : Option String
  pendingAction : Option (PendingAction Token)

/-- `ai:meta`, `ai:chunk`, `ai:done` and `ai:error`. -/
inductive StreamEvent (Token : Type) where
  | opened (info : AiStreamMeta Token)
  | chunk (requestId token : String)
  | done (requestId : String)
  | error (requestId message : String)

structure EventRateWindow where
  windowStartMs : ℤ
  countInWindow : ℕ
deriving DecidableEq, Repr

def maxEventsPerSecond : ℕ := 2

/-- What the gateway keeps of a connection. -/
structure AiSocket where
  user : Option CurrentUser
  rate : Option EventRateWindow := none

variable {Token : Type}

def StreamEvent.requestId : StreamEvent Token → String
  | .opened info => info.requestId
  | .chunk requestId _ => requestId
  | .done requestId => requestId
  | .error requestId _ => requestId

def allowEventRate (now : ℤ) (socket : AiSocket) : Bool × AiSocket :=
  let fresh : Bool × AiSocket := (true, { socket with rate := some ⟨now, 1⟩ })
  match socket.rate with
  | none => fresh
  | some current =>
    if now - current.windowStartMs ≥ 1000 then fresh
    else
      let countInWindow := current.countInWindow + 1
      (countInWindow ≤ maxEventsPerSecond,
        { socket with rate := some { current with countInWindow } })

/-- A message is refused, or it is a request for the AI service. -/
def handleAiChat (now : ℤ) (socket : AiSocket) (payload : AiChatPayload) :
    Except String (CurrentUser × ChatRequestDto) × AiSocket :=
  match socket.user with
  | none => (.error "Unauthorized socket session", socket)
  | some user =>
    match truthy payload.message with
    | none => (.error "Message is required", socket)
    | some message =>
      let (allowed, socket) := allowEventRate now socket
      if allowed then
        let dto : ChatRequestDto := {
          message
          conversationId := payload.conversationId
          includeContext := payload.includeContext
          images := payload.images }
        (.ok (user, dto), socket)
      else (.error "Too many chat messages. Maximum 2 messages per second.", socket)

/-- `content.split(/(\s+)/).filter(Boolean)`. -/
def tokens (content : String) : List String :=
  (Pieces.chunks jsSpace content.toList).map String.ofList

def opening (requestId : String) (result : ChatReply Token) : AiStreamMeta Token where
  requestId := requestId
  conversationId := result.conversationId
  messageId := result.message.id
  provider := result.message.provider
  model := result.message.model
  pendingAction := result.pendingAction

def remaining (requestId : String) (rest : List String) : List (StreamEvent Token) :=
  rest.map (StreamEvent.chunk requestId) ++ [.done requestId]

/-- What the gateway sends for what the AI service returned. -/
def streamed (requestId : String) : Except String (ChatReply Token) → List (StreamEvent Token)
  | .ok result => .opened (opening requestId result) ::
      remaining requestId (tokens result.message.content)
  | .error message => [.error requestId message]

end Gateway

section Page

/-- A message of the page, as far as the answers change it. -/
structure ChatUiMessage (Token : Type) where
  id : String
  role : MessageRole
  content : String
  provider : Option String := none
  model : Option String := none
  pendingAction : Option (PendingAction Token) := none

structure ActiveStreamState (Token : Type) where
  requestId : String
  assistantId : String
  conversationId : Option String
  pendingAction : Option (PendingAction Token) := none

/-- The page; what became of the promise of each stream is kept with its request. -/
structure AssistantChat (Token : Type) where
  messages : List (ChatUiMessage Token) := []
  activeConversationId : Option String := none
  active : Option (ActiveStreamState Token) := none
  settled : List (String × Except String (Option String)) := []

def localAssistantId (requestId : String) : String := "local-assistant-" ++ requestId

def tookTooLong : String := "The assistant took too long to respond. Please retry your message."

variable {Token : Type}

/-- A stored message on the page; a history comes without pending actions. -/
def Message.shown (row : Message) (pendingAction : Option (PendingAction Token) := none) :
    ChatUiMessage Token where
  id := row.id
  role := row.role
  content := row.content
  provider := row.provider
  model := row.model
  pendingAction := pendingAction

namespace AssistantChat

variable (page : AssistantChat Token)

/-- `setMessages` with a change of the message under an id. -/
def patch (id : String) (f : ChatUiMessage Token → ChatUiMessage Token) : AssistantChat Token :=
  { page with messages := page.messages.map fun msg => if msg.id = id then f msg else msg }

/-- The promise of the active stream is resolved or rejected, and there is no stream any more. -/
def settle (active : ActiveStreamState Token) (outcome : Except String (Option String)) :
    AssistantChat Token :=
  { page with active := none, settled := page.settled ++ [(active.requestId, outcome)] }

/-- An event for another request than that of the active stream is ignored. -/
def during (requestId : String) (f : ActiveStreamState Token → AssistantChat Token) :
    AssistantChat Token :=
  match page.active with
  | none => page
  | some active => if requestId = active.requestId then f active else page

/-- The local message gets the id of the stored one. -/
def named (info : AiStreamMeta Token) (active : ActiveStreamState Token) :
    AssistantChat Token × ActiveStreamState Token :=
  if info.messageId ≠ "" ∧ info.messageId ≠ active.assistantId then
    (page.patch active.assistantId fun msg =>
        { msg with id := info.messageId, provider := info.provider, model := info.model },
      { active with assistantId := info.messageId })
  else (page, active)

def onMeta (info : AiStreamMeta Token) : AssistantChat Token :=
  page.during info.requestId fun active =>
    let (page, active) := page.named info active
    let active := { active with pendingAction := info.pendingAction.or active.pendingAction }
    if info.conversationId = "" then { page with active := some active }
    else { page with
      active := some { active with conversationId := some info.conversationId }
      activeConversationId := some info.conversationId }

def onChunk (requestId token : String) : AssistantChat Token :=
  page.during requestId fun active =>
    page.patch active.assistantId fun msg => { msg with content := msg.content ++ token }

def onDone (requestId : String) : AssistantChat Token :=
  page.during requestId fun active =>
    let page := match active.pendingAction with
      | none => page
      | some pendingAction =>
        page.patch active.assistantId fun msg => { msg with pendingAction := some pendingAction }
    page.settle active (.ok active.conversationId)

def onError (requestId message : String) : AssistantChat Token :=
  page.during requestId fun active =>
    let page := page.patch active.assistantId fun msg => { msg with
      content := (truthy (some message)).getD
        "The assistant stream failed before completing the answer." }
    page.settle active (.error ((truthy (some message)).getD "Stream failed"))

def receive : StreamEvent Token → AssistantChat Token
  | .opened info => page.onMeta info
  | .chunk requestId token => page.onChunk requestId token
  | .done requestId => page.onDone requestId
  | .error requestId message => page.onError requestId message

def onTimeout (requestId : String) : AssistantChat Token :=
  page.during requestId fun active =>
    (page.patch active.assistantId fun msg => { msg with content := tookTooLong }).settle active
      (.error "Assistant stream timeout")

/-- The effect that opened the socket is cleaned up. -/
def unmount : AssistantChat Token :=
  match page.active with
  | none => page
  | some active => page.settle active (.error "WebSocket disconnected")

/-- A message for the answer, and the stream that will fill it. -/
def sendMessageViaWebSocket (requestId conversationId : String) : AssistantChat Token :=
  { page with
    messages := page.messages ++ [{
      id := localAssistantId requestId
      role := .assistant
      content := "" }]
    active := some {
      requestId
      assistantId := localAssistantId requestId
      conversationId := some conversationId } }

/-- `loadMessages`; without an answer there are no messages. -/
def loaded (rows : List Message) : AssistantChat Token :=
  { page with messages := rows.map fun row => row.shown }

def append (msg : ChatUiMessage Token) : AssistantChat Token :=
  { page with messages := page.messages ++ [msg] }

def confirmed (messageId : String) : AssistantChat Token :=
  page.patch messageId fun msg => { msg with pendingAction := none }

end AssistantChat

end Page

section Exchange

/-- The page, its connection and the AI service: the messages to the gateway and the events to the
page that are on their way, the requests the service works on, the stored messages, the answers
returned to the gateway and the request ids the page has drawn. -/
structure Exchange (Token : Type) where
  page : AssistantChat Token
  socket : AiSocket
  sent : List AiChatPayload
  waiting : List (String × ChatRequestDto)
  events : List (StreamEvent Token)
  stored : Table Message.key
  answers : List (String × ChatReply Token)
  drawn : List String

def LocalId (id : String) : Prop := "local-".toList <+: id.toList

instance (id : String) : Decidable (LocalId id) :=
  inferInstanceAs (Decidable ("local-".toList <+: id.toList))

def NoteId (id : String) : Prop := LocalId id ∧ ¬ "local-assistant-".toList <+: id.toList

inductive ExchangeLabel where
  | ask (requestId : String)
  | receive
  | answer
  | deliver
  | reconnect
  | timeout (requestId : String)
  | unmount
  | store
  | history (rows : List Message)
  | note
  | reply (row : Message)
  | confirm

variable {Token : Type}

/-- A message without an id of its own gets one that is made up. -/
def AiChatPayload.answeredAs (payload : AiChatPayload) (generated : String) : String :=
  (truthy payload.requestId).getD generated

inductive Exchange.Step : Exchange Token → ExchangeLabel → Exchange Token → Prop
  | ask {x : Exchange Token} {requestId : String} (conversationId : String) (payload : AiChatPayload)
      (hid : payload.requestId = some requestId) (hne : requestId ≠ "")
      (hfresh : requestId ∉ x.drawn) :
      Step x (.ask requestId) { x with
        page := x.page.sendMessageViaWebSocket requestId conversationId
        sent := x.sent ++ [payload]
        drawn := requestId :: x.drawn }
  | refuse {x : Exchange Token} {payload : AiChatPayload} {sent : List AiChatPayload}
      {message : String} {socket : AiSocket} (now : ℤ) (generated : String) (hsent : x.sent = payload :: sent)
      (h : handleAiChat now x.socket payload = (.error message, socket)) :
      Step x .receive { x with
        socket
        sent
        events := x.events ++ [.error (payload.answeredAs generated) message] }
  | accept {x : Exchange Token} {payload : AiChatPayload} {sent : List AiChatPayload}
      {user : CurrentUser} {dto : ChatRequestDto} {socket : AiSocket} (now : ℤ) (generated : String)
      (hsent : x.sent = payload :: sent)
      (h : handleAiChat now x.socket payload = (.ok (user, dto), socket)) :
      Step x .receive { x with
        socket
        sent
        waiting := x.waiting ++ [(payload.answeredAs generated, dto)] }
  | answer {x : Exchange Token} {requestId : String} {dto : ChatRequestDto}
      (before after : List (String × ChatRequestDto)) (result : ChatReply Token)
      (hwaiting : x.waiting = before ++ (requestId, dto) :: after)
      (hids : ¬ LocalId result.message.id ∧ result.message.id ≠ "" ∧ result.conversationId ≠ "")
      (hfresh : result.message.id ∉ x.stored.rows.map Message.key) :
      Step x .answer { x with
        waiting := before ++ after
        events := x.events ++ streamed requestId (.ok result)
        stored := x.stored.insert result.message hfresh
        answers := x.answers ++ [(requestId, result)] }
  | fail {x : Exchange Token} {requestId : String} {dto : ChatRequestDto}
      (before after : List (String × ChatRequestDto)) (message : String)
      (hwaiting : x.waiting = before ++ (requestId, dto) :: after) :
      Step x .answer { x with
        waiting := before ++ after
        events := x.events ++ streamed requestId (.error message) }
  | deliver {x : Exchange Token} {event : StreamEvent Token} {events : List (StreamEvent Token)}
      (hevents : x.events = event :: events) :
      Step x .deliver { x with page := x.page.receive event, events }
  | reconnect {x : Exchange Token} (user : Option CurrentUser) :
      Step x .reconnect { x with socket := { user }, sent := [], waiting := [], events := [] }
  | timeout {x : Exchange Token} (requestId : String) :
      Step x (.timeout requestId) { x with page := x.page.onTimeout requestId }
  | unmount {x : Exchange Token} : Step x .unmount { x with page := x.page.unmount }
  | store {x : Exchange Token} (row : Message) (hid : ¬ LocalId row.id)
      (hfresh : row.id ∉ x.stored.rows.map Message.key) :
      Step x .store { x with stored := x.stored.insert row hfresh }
  | history {x : Exchange Token} (rows : List Message) (hrows : rows ⊆ x.stored.rows) :
      Step x (.history rows) { x with page := x.page.loaded rows }
  | note {x : Exchange Token} (msg : ChatUiMessage Token) (hid : NoteId msg.id) :
      Step x .note { x with page := x.page.append msg }
  | reply {x : Exchange Token} (row : Message) (pendingAction : Option (PendingAction Token))
      (hrow : row ∈ x.stored.rows)
      (hother : ∀ answer ∈ x.answers, answer.2.message.id ≠ row.id) :
      Step x (.reply row) { x with page := x.page.append (row.shown pendingAction) }
  | confirm {x : Exchange Token} (messageId : String) :
      Step x .confirm { x with page := x.page.confirmed messageId }

def Exchange.start (user : Option CurrentUser) (stored : Table Message.key) : Exchange Token where
  page := {}
  socket := { user }
  sent := []
  waiting := []
  events := []
  stored := stored
  answers := []
  drawn := []

/-- A history that comes during a stream does not bring the answer that is being streamed. -/
def Exchange.Undisturbed (x : Exchange Token) : ExchangeLabel → Prop
  | .history rows => ∀ active, x.page.active = some active →
      ∀ answer ∈ x.answers, answer.1 = active.requestId →
      ∀ row ∈ rows, row.id ≠ answer.2.message.id
  | _ => True

end Exchange

end CloudVM.Conversations
