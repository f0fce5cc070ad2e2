import CloudVM.Assistant.Actions
import CloudVM.Assistant.Conversations
import CloudVM.Framework.Tenants

/-!
# Isolation of the users of the assistant

A request reads and writes the messages of a conversation only after the table has said that the
conversation is its user's. Hence the conversations of a user go their way as if nobody else used
the service.
-/

namespace CloudVM.Conversations

open Access Assistant Process

section View

namespace ConversationStore

variable (s : ConversationStore)

def owner (conversationId : String) : Option String :=
  (s.conversations.find? conversationId).map Conversation.userId

/-- The conversations of a user and the messages in them. -/
def view (userId : String) : ConversationStore where
  conversations := s.conversations.erase fun c => c.userId ≠ userId
  messages := s.messages.erase fun m => s.owner m.conversationId ≠ some userId
  clock := s.clock
  linked := by
    intro m hm
    obtain ⟨-, hown⟩ := (Table.mem_erase _ _ _).mp hm
    obtain ⟨c, hc, hid⟩ : ∃ c, s.conversations.find? m.conversationId = some c ∧ c.userId = userId := by
      simpa [owner] using hown
    obtain ⟨hmem, hkey⟩ := s.conversations.find?_eq_some.mp hc
    exact ⟨c, (Table.mem_erase _ _ _).mpr ⟨hmem, by simpa using hid⟩, hkey⟩

variable {s} {s' : ConversationStore} {userId u conversationId : String}

theorem owner_eq_some :
    s.owner conversationId = some u ↔
      ∃ c ∈ s.conversations.rows, c.id = conversationId ∧ c.userId = u := by
  simp only [owner, Option.map_eq_some_iff, Table.find?_eq_some, and_assoc]

theorem view_conversations : (s.view u).conversations.rows =
    s.conversations.rows.filter fun c => c.userId = u := by
  simp [view, Table.erase]

theorem view_messages : (s.view u).messages.rows =
    s.messages.rows.filter fun m => s.owner m.conversationId = some u := by
  simp [view, Table.erase]

theorem find?_of_mem_view {id : String} (h : s.conversations.find? id = none) :
    (s.view u).conversations.find? id = none := by
  apply (Table.find?_eq_none _).mpr
  intro c hc
  rw [view_conversations] at hc
  exact s.conversations.find?_eq_none.mp h c (List.mem_filter.mp hc).1

theorem findMessage_of_mem_view {id : String} (h : s.messages.find? id = none) :
    (s.view u).messages.find? id = none := by
  apply (Table.find?_eq_none _).mpr
  intro m hm
  rw [view_messages] at hm
  exact s.messages.find?_eq_none.mp h m (List.mem_filter.mp hm).1

variable {rows : List Conversation} {messages : List Message}

theorem Grows.owner (h : s.Grows rows messages s') (conversationId : String) :
    s'.owner conversationId = (s.owner conversationId).or
      ((rows.find? fun c => c.id = conversationId).map Conversation.userId) := by
  rw [ConversationStore.owner, ConversationStore.owner, Table.find?, h.conversations,
    List.find?_append, Option.map_or]
  rfl

/-- Messages of old conversations, after a conversation came in. -/
theorem Grows.view (h : s.Grows rows messages s')
    (hmessages : ∀ m ∈ messages, ∃ c ∈ s.conversations.rows, c.id = m.conversationId) :
    (s.view u).Grows (rows.filter fun c => c.userId = u)
      (messages.filter fun m => s.owner m.conversationId = some u) (s'.view u) := by
  have hown : ∀ m : Message, (∃ c ∈ s.conversations.rows, c.id = m.conversationId) →
      s'.owner m.conversationId = s.owner m.conversationId := by
    rintro m ⟨c, hc, hid⟩
    have hsome : s.owner m.conversationId = some c.userId := owner_eq_some.mpr ⟨c, hc, hid, rfl⟩
    rw [h.owner, hsome, Option.some_or]
  constructor
  · rw [view_conversations, view_conversations, h.conversations, List.filter_append]
  · rw [view_messages, view_messages, h.messages, List.filter_append]
    congr 1
    · apply List.filter_congr
      intro m hm
      rw [hown m (s.linked m hm)]
    · apply List.filter_congr
      intro m hm
      rw [hown m (hmessages m hm)]
  · exact h.clock

theorem messagesOf_view (h : s.owner conversationId = some u) :
    (s.view u).messagesOf conversationId = s.messagesOf conversationId := by
  rw [messagesOf, messagesOf, view_messages, List.filter_filter]
  apply List.filter_congr
  intro m _
  by_cases hm : m.conversationId = conversationId
  · simp [hm, h]
  · simp [hm]

/-- What a user's requests ask the database for: the user's own conversations and messages. -/
def Owned (s : ConversationStore) (userId : String) : DbCall → Prop
  | .createConversation u _ => u = userId
  | .listConversations u => u = userId
  | .findConversation _ u => u = userId
  | .findMessages conversationId _ => s.owner conversationId = some userId
  | .createMessage data => s.owner data.conversationId = some userId

variable {c : DbCall} {row : c.Row}

/-- A user's call does to the user's view what it does to the tables. -/
theorem done_view (hown : s.Owned u c) (h : c.Done s row s') : c.Done (s.view u) row (s'.view u) := by
  cases c with
  | createConversation userId title =>
    obtain rfl := hown
    obtain ⟨huser, htitle, hcreated, hupdated, hfree, hgrows⟩ := h
    have hview := hgrows.view (u := userId) (by simp)
    refine ⟨huser, htitle, hcreated, hupdated, find?_of_mem_view hfree, ?_⟩
    simpa [huser] using hview
  | listConversations userId =>
    obtain rfl := hown
    obtain ⟨hperm, hsorted, hcounts, rfl⟩ := h
    refine ⟨?_, hsorted, ?_, rfl⟩
    · rw [view_conversations, List.filter_filter]
      simpa using hperm
    · intro e he
      obtain ⟨hmem, huser⟩ := List.mem_filter.mp (hperm.subset (List.mem_map_of_mem he))
      have howner : s'.owner e.1.id = some userId :=
        owner_eq_some.mpr ⟨e.1, hmem, rfl, by simpa using huser⟩
      rw [hcounts e he, messagesOf_view howner]
  | findConversation id userId =>
    obtain rfl := hown
    obtain ⟨rfl, rfl⟩ := h
    refine ⟨?_, rfl⟩
    rw [view_conversations, List.find?_filter]
    congr 1
    funext c
    by_cases hc : c.userId = userId <;> simp [hc]
  | findMessages conversationId take =>
    obtain ⟨⟨ordered, hperm, hrest⟩, rfl⟩ := h
    rw [← messagesOf_view hown] at hperm
    exact ⟨⟨ordered, hperm, hrest⟩, rfl⟩
  | createMessage data =>
    obtain ⟨hrow, ⟨c, hc, hid⟩, hfree, hgrows⟩ := h
    have hconversation : row.conversationId = data.conversationId := by
      rw [hrow]
      rfl
    have huser : s.owner row.conversationId = some u := by rw [hconversation, hown]
    have hview := hgrows.view (u := u) (by simpa using ⟨c, hc, hid.trans hconversation.symm⟩)
    obtain ⟨d, hd, hdid, hduser⟩ := owner_eq_some.mp hown
    have hmem : d ∈ (s.view u).conversations.rows := by
      rw [view_conversations]
      exact List.mem_filter.mpr ⟨hd, by simpa using hduser⟩
    refine ⟨hrow, ⟨d, hmem, hdid⟩, findMessage_of_mem_view hfree, ?_⟩
    simpa [huser] using hview

theorem done_view_other (hown : s.Owned userId c) (h : c.Done s row s') (hne : u ≠ userId) :
    s'.view u = s.view u := by
  have hsame : ∀ {rows messages}, s.Grows rows messages s' →
      (∀ m ∈ messages, ∃ c ∈ s.conversations.rows, c.id = m.conversationId) →
      (∀ c ∈ rows, c.userId ≠ u) → (∀ m ∈ messages, s.owner m.conversationId ≠ some u) →
      s'.view u = s.view u := by
    intro rows messages hgrows hlinked hrows hmessages
    have hview := hgrows.view (u := u) hlinked
    have hnone : (rows.filter fun c => c.userId = u) = [] := by simpa using hrows
    have hno : (messages.filter fun m => s.owner m.conversationId = some u) = [] := by
      simpa using hmessages
    rw [hnone, hno] at hview
    exact ext_rows (by simpa using hview.conversations) (by simpa using hview.messages) hview.clock
  cases c with
  | createConversation v title =>
    obtain rfl := hown
    obtain ⟨huser, -, -, -, -, hgrows⟩ := h
    apply hsame hgrows (by simp)
    · simpa [huser] using hne.symm
    · simp
  | listConversations v =>
    obtain ⟨-, -, -, rfl⟩ := h
    rfl
  | findConversation id v =>
    obtain ⟨-, rfl⟩ := h
    rfl
  | findMessages conversationId take =>
    obtain ⟨-, rfl⟩ := h
    rfl
  | createMessage data =>
    obtain ⟨hrow, ⟨c, hc, hid⟩, -, hgrows⟩ := h
    have hconversation : row.conversationId = data.conversationId := by
      rw [hrow]
      rfl
    apply hsame hgrows
    · simpa using ⟨c, hc, hid.trans hconversation.symm⟩
    · simp
    · have howner : s.owner data.conversationId = some userId := hown
      simpa [hconversation, howner] using hne.symm

theorem done_owner (h : c.Done s row s') (hown : s.owner conversationId = some u) :
    s'.owner conversationId = some u := by
  have hgrows : ∀ {rows messages}, s.Grows rows messages s' →
      s'.owner conversationId = some u := by
    intro rows messages hgrows
    rw [hgrows.owner, hown, Option.some_or]
  cases c with
  | createConversation v title =>
    obtain ⟨-, -, -, -, -, h⟩ := h
    exact hgrows h
  | listConversations v =>
    obtain ⟨-, -, -, rfl⟩ := h
    exact hown
  | findConversation id v =>
    obtain ⟨-, rfl⟩ := h
    exact hown
  | findMessages conversationId take =>
    obtain ⟨-, rfl⟩ := h
    exact hown
  | createMessage data =>
    obtain ⟨-, -, -, h⟩ := h
    exact hgrows h

end ConversationStore

end View

section Knowledge

variable {Token : Type}

abbrev AiLog (Token : Type) := List (Event (aiInterface Token))

/-- According to the log the conversation is the user's: it was found, or created. -/
def Vouched (log : AiLog Token) (conversationId userId : String) : Prop :=
  (∃ title row, row.id = conversationId ∧ row.userId = userId ∧
    ⟨.db (.createConversation userId title), .ok row⟩ ∈ log) ∨
  ∃ row, row.id = conversationId ∧ row.userId = userId ∧
    ⟨.db (.findConversation conversationId userId), .ok (some row)⟩ ∈ log

theorem Vouched.append {log : AiLog Token} {conversationId userId : String}
    (h : Vouched log conversationId userId) (later : AiLog Token) :
    Vouched (log ++ later) conversationId userId := by
  rcases h with ⟨title, row, hid, huser, hm⟩ | ⟨row, hid, huser, hm⟩
  · exact .inl ⟨title, row, hid, huser, List.mem_append_left _ hm⟩
  · exact .inr ⟨row, hid, huser, List.mem_append_left _ hm⟩

/-- What the database says of a conversation it finds or creates. -/
def aiFits : (c : AiCall Token) → c.Answer → Prop
  | .db (.createConversation userId _), r => ∀ row, r = .ok row → row.userId = userId
  | .db (.findConversation id userId), r =>
    ∀ row, r = .ok (some row) → row.id = id ∧ row.userId = userId
  | _, _ => True

/-- What a request of the user may ask for, given its log. -/
def aiPermits (userId : String) (log : AiLog Token) : AiCall Token → Prop
  | .db (.createConversation u _) => u = userId
  | .db (.listConversations u) => u = userId
  | .db (.findConversation _ u) => u = userId
  | .db (.findMessages conversationId _) => Vouched log conversationId userId
  | .db (.createMessage data) => Vouched log data.conversationId userId
  | _ => True

def Knows (log : AiLog Token) (s : ConversationStore) : Prop :=
  ∀ conversationId userId, Vouched log conversationId userId →
    s.owner conversationId = some userId

variable {c : AiCall Token} {s s' : ConversationStore} {r : c.Answer}

theorem aiFits_of_effect (h : aiEffect c s r s') : aiFits c r := by
  cases c with
  | db c =>
    cases c with
    | createConversation userId title =>
      intro row hrow
      rcases h with ⟨row', hr, huser, -⟩ | ⟨e, hr, -⟩
      · rw [hr] at hrow
        cases hrow
        exact huser
      · rw [hr] at hrow
        cases hrow
    | findConversation id userId =>
      intro row hrow
      rcases h with ⟨found, hr, hfind, -⟩ | ⟨e, hr, -⟩
      · rw [hr] at hrow
        cases hrow
        simpa using List.find?_some hfind.symm
      · rw [hr] at hrow
        cases hrow
    | _ => trivial
  | _ => trivial

theorem owner_of_effect {conversationId u : String} (h : aiEffect c s r s')
    (hown : s.owner conversationId = some u) : s'.owner conversationId = some u := by
  cases c with
  | db c =>
    rcases h with ⟨row, -, h⟩ | ⟨e, -, rfl | ⟨row, h⟩⟩
    · exact s.done_owner h hown
    · exact hown
    · exact s.done_owner h hown
  | now =>
    obtain ⟨-, rfl⟩ := h
    exact hown
  | fetchContext token =>
    obtain rfl : s' = s := h
    exact hown
  | postAction request =>
    obtain rfl : s' = s := h
    exact hown
  | complete request =>
    obtain rfl : s' = s := h
    exact hown

theorem knows_nil (s : ConversationStore) : Knows ([] : AiLog Token) s := by
  intro conversationId userId hv
  rcases hv with ⟨title, row, -, -, hm⟩ | ⟨row, -, -, hm⟩
  · cases hm
  · cases hm

theorem Knows.later {log : AiLog Token} (hk : Knows log s) (h : aiEffect c s r s') : Knows log s' :=
  fun conversationId userId hv => owner_of_effect h (hk conversationId userId hv)

theorem Knows.act {log : AiLog Token} (hk : Knows log s) (h : aiEffect c s r s') :
    Knows (log ++ [⟨c, r⟩]) s' := by
  intro conversationId userId hv
  rcases hv with ⟨title, row, hid, huser, hm⟩ | ⟨row, hid, huser, hm⟩
  · rcases List.mem_append.mp hm with hm | hm
    · exact hk.later h _ _ (.inl ⟨title, row, hid, huser, hm⟩)
    · cases List.mem_singleton.mp hm
      rcases h with ⟨created, hr, -, -, -, -, -, hgrows⟩ | ⟨e, hr, -⟩
      · cases hr
        apply ConversationStore.owner_eq_some.mpr
        refine ⟨row, ?_, hid, huser⟩
        rw [hgrows.conversations]
        simp
      · cases hr
  · rcases List.mem_append.mp hm with hm | hm
    · exact hk.later h _ _ (.inr ⟨row, hid, huser, hm⟩)
    · cases List.mem_singleton.mp hm
      rcases h with ⟨found, hr, hfind, rfl⟩ | ⟨e, hr, -⟩
      · cases hr
        exact ConversationStore.owner_eq_some.mpr
          ⟨row, List.mem_of_find?_eq_some hfind.symm, hid, huser⟩
      · cases hr

theorem Knows.owned {log : AiLog Token} {userId : String} {d : DbCall} (hk : Knows log s)
    (hp : aiPermits userId log (.db d)) : s.Owned userId d := by
  cases d with
  | createConversation u title => exact hp
  | listConversations u => exact hp
  | findConversation id u => exact hp
  | findMessages conversationId take => exact hk _ _ hp
  | createMessage data => exact hk _ _ hp

end Knowledge

section Handlers

variable {Token : Type} {env : AiEnv Token} {userId conversationId : String} {log : AiLog Token}
  {J : AiLog Token → Prop}

private theorem db_keeps {c : DbCall} (hJ : ∀ log e, J log → J (log ++ [e]))
    (hp : ∀ log, J log → aiPermits userId log (.db c)) :
    (db c : AiProcess Token c.Row).Keeps (aiPermits userId) (logged aiFits) J := by
  apply keeps_call hp
  rintro r log log' hlog ⟨-, rfl⟩
  exact ⟨hJ _ _ hlog, keeps_ofExcept _⟩

private theorem ofProvider_keeps {α : Type} (hJ : ∀ log e, J log → J (log ++ [e]))
    (p : ProviderProcess α) :
    (ofProvider p : AiProcess Token α).Keeps (aiPermits userId) (logged aiFits) J := by
  induction p with
  | ret a => exact keeps_ret a
  | raise e => exact keeps_raise e
  | call c k ih =>
    apply keeps_call
    · intro log _
      trivial
    · rintro r log log' hlog ⟨-, rfl⟩
      exact ⟨hJ _ _ hlog, ih r⟩

private theorem vouched_append (log : AiLog Token) (e : Event (aiInterface Token))
    (h : Vouched log conversationId userId) : Vouched (log ++ [e]) conversationId userId :=
  h.append [e]

private theorem buildPromptMessages_keeps (user : CurrentUser) (dto : ChatRequestDto)
    (ctx : AppContext) (images : List String) (detected : Bool) :
    (buildPromptMessages user conversationId dto ctx images detected : AiProcess Token _).Keeps
      (aiPermits userId) (logged aiFits) fun log => Vouched log conversationId userId := by
  apply keeps_bind
  · unfold latestMessages
    split
    · exact db_keeps vouched_append fun log h => h
    · exact keeps_ret _
  · intro latest
    exact keeps_ret _

private theorem answer_keeps (user : CurrentUser) (sanitizedMessage : String) (dto : ChatRequestDto)
    (appContext : AppContext) (pendingAction : Option (PendingAction Token)) :
    (answer env user conversationId sanitizedMessage dto appContext pendingAction).Keeps
      (aiPermits userId) (logged aiFits) fun log => Vouched log conversationId userId := by
  have hstore : ∀ result, (storeAnswer conversationId result : AiProcess Token Message).Keeps
      (aiPermits userId) (logged aiFits) fun log => Vouched log conversationId userId :=
    fun result => db_keeps vouched_append fun log h => h
  unfold answer
  cases pendingAction with
  | some pendingAction => exact keeps_bind (hstore _) fun _ => keeps_ret _
  | none =>
    dsimp only
    split
    · exact keeps_bind (hstore _) fun _ => keeps_ret _
    · apply keeps_bind (buildPromptMessages_keeps user dto appContext _ _)
      intro promptMessages
      apply keeps_bind (ofProvider_keeps vouched_append _)
      intro completion
      exact keeps_bind (hstore _) fun _ => keeps_ret _

private theorem fetchAppContext_keeps (user : CurrentUser) (hJ : ∀ log e, J log → J (log ++ [e])) :
    (fetchAppContext env user).Keeps (aiPermits userId) (logged aiFits) J := by
  apply keeps_call
  · intro log _
    trivial
  · rintro t log log' hlog ⟨-, rfl⟩
    refine ⟨hJ _ _ hlog, ?_⟩
    apply keeps_bind (keeps_ofExcept _)
    intro token
    apply keeps_call
    · intro log _
      trivial
    · rintro answers log log' hlog ⟨-, rfl⟩
      exact ⟨hJ _ _ hlog, keeps_bind (keeps_ofExcept _) fun _ => keeps_ofExcept _⟩

private theorem detectPendingAction_keeps (message : String) (user : CurrentUser)
    (vms : List VmContextItem) (hJ : ∀ log e, J log → J (log ++ [e])) :
    (detectPendingAction env message user vms).Keeps (aiPermits userId) (logged aiFits) J := by
  apply keeps_call
  · intro log _
    trivial
  · rintro t log log' hlog ⟨-, rfl⟩
    exact ⟨hJ _ _ hlog, keeps_ofExcept _⟩

private theorem ensureConversationOwner_wp :
    (ensureConversationOwner conversationId userId : AiProcess Token Conversation).Wp
      (aiPermits userId) (logged aiFits)
      (Post (fun row log => row.id = conversationId ∧ Vouched log conversationId userId)
        fun _ _ => True) log := by
  refine ⟨rfl, ?_⟩
  rintro r log' ⟨hfits, rfl⟩
  cases r with
  | error e => trivial
  | ok found =>
    cases found with
    | none => trivial
    | some row =>
      obtain ⟨hid, huser⟩ := hfits row rfl
      exact ⟨hid, .inr ⟨row, hid, huser, by simp⟩⟩

private theorem resolveConversationId_wp (dto : ChatRequestDto) :
    (resolveConversationId userId dto : AiProcess Token String).Wp (aiPermits userId)
      (logged aiFits) (Post (fun id log => Vouched log id userId) fun _ _ => True) log := by
  unfold resolveConversationId
  split
  · refine ⟨rfl, ?_⟩
    rintro r log' ⟨hfits, rfl⟩
    cases r with
    | error e => trivial
    | ok row => exact .inl ⟨_, row, rfl, hfits row rfl, by simp⟩
  · apply ensureConversationOwner_wp.bind
    · intro e log' _
      trivial
    · rintro row log' ⟨hid, hv⟩
      rw [← hid] at hv
      exact hv

private theorem chat_wp (user : CurrentUser) (dto : ChatRequestDto) :
    (chat env user dto).Wp (aiPermits user.userId) (logged aiFits) (fun _ _ => True) log := by
  apply (resolveConversationId_wp dto).bind
  · intro e log' _
    trivial
  · intro conversationId log' hv
    have hkeeps : Keeps (aiPermits user.userId) (logged aiFits)
        (fun log => Vouched log conversationId user.userId) (do
          let appContext ← fetchAppContext env user
          let pendingAction ← detectPendingAction env (sanitizeUserMessage dto.message) user
            appContext.vms
          let _ ← db (.createMessage {
            conversationId, role := .user, content := sanitizeUserMessage dto.message })
          answer env user conversationId (sanitizeUserMessage dto.message) dto appContext
            pendingAction) := by
      apply keeps_bind (fetchAppContext_keeps user vouched_append)
      intro appContext
      apply keeps_bind (detectPendingAction_keeps _ user _ vouched_append)
      intro pendingAction
      apply keeps_bind
      · exact db_keeps vouched_append fun log h => h
      · intro stored
        exact answer_keeps user _ dto appContext pendingAction
    exact (hkeeps log' hv).mono fun _ _ _ => trivial

private theorem confirmAction_wp (user : CurrentUser) (confirmationToken : Token)
    (conversationId : Option String) :
    (confirmAction env user confirmationToken conversationId).Wp (aiPermits user.userId)
      (logged aiFits) (fun _ _ => True) log := by
  refine ⟨trivial, ?_⟩
  rintro t log₁ ⟨-, rfl⟩
  apply ((wp_ofExcept _ (fun _ _ => True) _).mpr trivial).bind
  · intro e log' _
    trivial
  · rintro ⟨payload, request⟩ log' _
    refine ⟨trivial, ?_⟩
    rintro r log₂ ⟨-, rfl⟩
    cases r with
    | error e => trivial
    | ok reply =>
      simp only [ofExcept_ok]
      apply ((wp_ofExcept _ (fun _ _ => True) _).mpr trivial).bind
      · intro e log' _
        trivial
      · intro result log' _
        split
        · trivial
        · apply ensureConversationOwner_wp.bind
          · intro e log' _
            trivial
          · rintro row log' ⟨-, hv⟩
            refine ⟨hv, ?_⟩
            rintro r log₃ ⟨-, rfl⟩
            cases r <;> trivial

theorem handle_wp (q : AiRequest Token) :
    (q.handle env).Wp (aiPermits q.user.userId) (logged aiFits) (fun _ _ => True) [] := by
  obtain ⟨user, action⟩ := q
  cases action with
  | createConversation title =>
    refine ⟨rfl, ?_⟩
    intro r log' _
    cases r <;> trivial
  | listConversations =>
    refine ⟨rfl, ?_⟩
    intro r log' _
    cases r <;> trivial
  | getMessages conversationId =>
    apply Wp.bind (R := fun _ _ => True)
    · apply ensureConversationOwner_wp.bind
      · intro e log' _
        trivial
      · rintro row log' ⟨hid, hv⟩
        rw [← hid] at hv
        refine ⟨hv, ?_⟩
        intro r log'' _
        cases r <;> trivial
    · intro e log' _
      trivial
    · intro result log' _
      trivial
  | chat dto =>
    apply (chat_wp user dto).bind
    · intro e log' _
      trivial
    · intro reply log' _
      trivial
  | confirmAction confirmationToken conversationId =>
    apply (confirmAction_wp user confirmationToken conversationId).bind
    · intro e log' _
      trivial
    · intro result log' _
      trivial

end Handlers

section Isolation

variable {Token : Type} (env : AiEnv Token)

def aiContract : (aiServer env).Contract where
  fits := aiFits
  permits := fun q log c => aiPermits q.user.userId log c
  returns := fun _ _ _ => True
  sound := fun _ _ _ _ _ _ h => aiFits_of_effect h
  holds := by
    intro q
    apply (handle_wp q).mono
    intro out log _
    cases out <;> trivial

/-- Each user of the assistant is a tenant, who sees the own conversations. -/
def aiTenancy : (aiServer env).Tenancy String where
  contract := aiContract env
  tenant := fun q => q.user.userId
  view := fun userId s => s.view userId
  Knows := fun _ log s => Knows log s
  knows_begin := fun _ s => knows_nil s
  knows_act := fun _ _ _ _ _ _ hk _ h => hk.act h
  knows_other := fun _ _ _ _ _ _ _ _ _ _ h hk => hk.later h
  knows_change := by
    rintro q log s s' hk ⟨t, rfl⟩
    exact hk
  own := by
    intro q log c s r s' hk hp h
    cases c with
    | db c =>
      rcases h with ⟨row, hr, h⟩ | ⟨e, hr, rfl | ⟨row, h⟩⟩
      · exact .inl ⟨row, hr, s.done_view (hk.owned hp) h⟩
      · exact .inr ⟨e, hr, .inl rfl⟩
      · exact .inr ⟨e, hr, .inr ⟨row, s.done_view (hk.owned hp) h⟩⟩
    | now =>
      obtain ⟨rfl, rfl⟩ := h
      exact ⟨rfl, rfl⟩
    | fetchContext token =>
      obtain rfl : s' = s := h
      exact rfl
    | postAction request =>
      obtain rfl : s' = s := h
      exact rfl
    | complete request =>
      obtain rfl : s' = s := h
      exact rfl
  other := by
    intro u q log c s r s' hne hk hp h
    cases c with
    | db c =>
      rcases h with ⟨row, -, h⟩ | ⟨e, -, rfl | ⟨row, h⟩⟩
      · exact s.done_view_other (hk.owned hp) h hne
      · rfl
      · exact s.done_view_other (hk.owned hp) h hne
    | now => rw [h.2]
    | fetchContext token => rw [show s' = s from h]
    | postAction request => rw [show s' = s from h]
    | complete request => rw [show s' = s from h]
  change := by
    rintro u s s' ⟨t, rfl⟩
    exact ⟨t, rfl⟩

/-- The requests of a user, with their logs, and the user's conversations and messages are those of
a run in which nobody else used the service. -/
theorem users_are_isolated {s : ConversationStore}
    {trace : List (StageLabel (aiInterface Token) (AiRequest Token) ×
      Stage (aiInterface Token) Failure (AiReply Token) (AiRequest Token) ConversationStore)}
    {x : Stage (aiInterface Token) Failure (AiReply Token) (AiRequest Token) ConversationStore}
    (h : Run (aiServer env).Step ⟨s, []⟩ trace x) (userId : String) :
    ∃ trace', Run (aiServer env).Step ⟨s.view userId, []⟩ trace'
        ⟨x.state.view userId, x.tasks.filter fun task => task.request.user.userId = userId⟩ ∧
      ∀ e ∈ trace', ∀ q, e.1 = .begin q → q.user.userId = userId := by
  obtain ⟨trace', hrun, hown⟩ := (aiTenancy env).project h userId
  refine ⟨trace', hrun, ?_⟩
  intro e he q hq
  have howned := hown e he
  rw [hq] at howned
  exact howned

end Isolation

section Sample

private def rowOf (userId : String) : Conversation := ⟨userId, userId, some "New conversation", 0, 0⟩

private def storeOf (conversations : Table Conversation.id) : ConversationStore :=
  ⟨conversations, .empty, 0, by simp⟩

private def requestOf (userId : String) : AiRequest (JwtPayload × String × ℕ) :=
  ⟨⟨userId, "u@example.com", "USER"⟩, .createConversation none⟩

/-- Two users open a conversation each, and their requests overlap. -/
theorem users_are_isolated_overlap :
    ∃ trace x, Run (aiServer ⟨plainService, {}, 1048576⟩).Step ⟨storeOf .empty, []⟩ trace x ∧
      x.state.conversations.rows = [rowOf "b", rowOf "a"] ∧
      ∃ trace', Run (aiServer ⟨plainService, {}, 1048576⟩).Step ⟨(storeOf .empty).view "a", []⟩ trace'
          ⟨x.state.view "a", x.tasks.filter fun task => task.request.user.userId = "a"⟩ ∧
        ∀ e ∈ trace', ∀ q, e.1 = .begin q → q.user.userId = "a" := by
  let first : Table Conversation.id := ⟨[rowOf "b"], by decide⟩
  let both : Table Conversation.id := ⟨[rowOf "b", rowOf "a"], by decide⟩
  have hb : DbCall.Done (.createConversation "b" "New conversation") (storeOf .empty) (rowOf "b")
      (storeOf first) := ⟨rfl, rfl, rfl, rfl, rfl, ⟨rfl, rfl, rfl⟩⟩
  have ha : DbCall.Done (.createConversation "a" "New conversation") (storeOf first) (rowOf "a")
      (storeOf both) := ⟨rfl, rfl, rfl, rfl, by decide, ⟨rfl, rfl, rfl⟩⟩
  have hstart : Run (aiServer ⟨plainService, {}, 1048576⟩).Step ⟨storeOf .empty, []⟩ []
      ⟨storeOf .empty, []⟩ := .nil
  have hrun := (hstart.snoc (.begin (requestOf "a"))).snoc (.begin (requestOf "b"))
  have hfirst := hrun.snoc (.act (i := 1) rfl (.inl ⟨rowOf "b", rfl, hb⟩))
  have hboth := hfirst.snoc (.act (i := 0) rfl (.inl ⟨rowOf "a", rfl, ha⟩))
  exact ⟨_, _, hboth, rfl, users_are_isolated _ hboth "a"⟩

end Sample

end CloudVM.Conversations
