import CloudVM.Assistant.Isolation

/-!
# What a chat request leaves behind

A chat request stores the message of the user, asks the providers one after the other where the
assistant has nothing to say of its own, and stores one answer. What has been stored and asked is
read off the log of the request.
-/

namespace CloudVM.Assistant

open Process

section Asking

def ProviderRequest.texts : ProviderRequest → List (ProviderRole × String)
  | .ollama _ messages => messages.map fun m => (m.role, m.content)
  | .openRouter _ messages => messages.map fun m => (m.role, m.text)

def promptTexts (messages : List ProviderMessage) : List (ProviderRole × String) :=
  messages.map fun m => (m.role, m.content)

/-- A provider that was asked has not given a text. -/
def ProviderAnswer.Silent (answer : ProviderAnswer) : Prop :=
  ∀ content model, answer = .data (some content) model → Text.jsTrim content = ""

abbrev Asked := List (ProviderRequest × ProviderAnswer)

variable {κ : Type}

/-- Each request to a provider is kept with its answer, beside a state it leaves alone. -/
def asks (c : ProviderRequest) (s : Asked × κ) (r : ProviderAnswer) (s' : Asked × κ) : Prop :=
  s' = (s.1 ++ [(c, r)], s.2)

/-- What one provider did: at most one request, with the texts of the prompt. -/
def Tried (messages : List ProviderMessage) (s : Asked × κ) :
    Except Failure ProviderChatResult → Asked × κ → Prop
  | .ok result, t => ∃ request content model,
      t = (s.1 ++ [(request, .data (some content) model)], s.2) ∧
        request.texts = promptTexts messages ∧ result.content = Text.jsTrim content ∧
        result.content ≠ ""
  | .error _, t => t = s ∨ ∃ request answer, t = (s.1 ++ [(request, answer)], s.2) ∧
      request.texts = promptTexts messages ∧ answer.Silent

/-- The prompt is the same for all, and only the last provider asked has spoken. -/
def Answered (messages : List ProviderMessage) (asked : Asked) (content : String) : Prop :=
  ∃ earlier request text model, asked = earlier ++ [(request, .data (some text) model)] ∧
    content = Text.jsTrim text ∧ content ≠ "" ∧ (∀ e ∈ earlier, e.2.Silent) ∧
    ∀ e ∈ asked, e.1.texts = promptTexts messages

def Unanswered (messages : List ProviderMessage) (asked : Asked) : Prop :=
  ∀ e ∈ asked, e.2.Silent ∧ e.1.texts = promptTexts messages

/-- What stands beside the requests is the same at every request. -/
theorem wp_beside {α : Type} {Q : Except Failure α → Asked × κ → Prop} {p : ProviderProcess α}
    {s : Asked × κ} {k : κ} (hk : s.2 = k) (h : p.Wp (fun _ _ => True) asks Q s) :
    p.Wp (fun t _ => t.2 = k) asks Q s := by
  induction p generalizing s with
  | ret a => exact h
  | raise e => exact h
  | call c next ih =>
    refine ⟨hk, ?_⟩
    intro r t ht
    have hnext := h.2 r t ht
    rw [ht] at hnext ⊢
    exact ih r hk hnext

variable {env : ProviderSettings} {messages : List ProviderMessage}

private theorem toOllama_texts (model : String) :
    (ProviderRequest.ollama model (messages.map ProviderMessage.toOllama)).texts =
      promptTexts messages := by
  simp only [ProviderRequest.texts, promptTexts, List.map_map]
  rfl

private theorem toOpenRouter_texts (model : String) :
    (ProviderRequest.openRouter model (messages.map ProviderMessage.toOpenRouter)).texts =
      promptTexts messages := by
  simp only [ProviderRequest.texts, promptTexts, List.map_map]
  rfl

private theorem silent_of_truthy {content model : Option String}
    (h : Access.truthy (content.map Text.jsTrim) = none) :
    (ProviderAnswer.data content model).Silent := by
  intro c model' heq
  cases heq
  simpa [Access.truthy] using h

private theorem spoken_of_truthy {content : Option String} {text : String}
    (h : Access.truthy (content.map Text.jsTrim) = some text) :
    ∃ c, content = some c ∧ text = Text.jsTrim c ∧ text ≠ "" := by
  obtain ⟨htext, hne⟩ := Option.filter_eq_some_iff.mp h
  obtain ⟨c, rfl, rfl⟩ := Option.map_eq_some_iff.mp htext
  exact ⟨c, rfl, rfl, by simpa using hne⟩

theorem ollamaChat_wp (s : Asked × κ) :
    (ollamaChat env messages).Wp (fun _ _ => True) asks (Tried messages s) s := by
  unfold ollamaChat
  split
  · exact .inl rfl
  · refine ⟨trivial, ?_⟩
    rintro answer t rfl
    cases answer with
    | failed message => exact .inr ⟨_, _, rfl, toOllama_texts _, by nofun⟩
    | refused status errorBody => exact .inr ⟨_, _, rfl, toOllama_texts _, by nofun⟩
    | data content model =>
      simp only [bind_def, ret_bind]
      split
      · rename_i htext
        exact .inr ⟨_, _, rfl, toOllama_texts _, silent_of_truthy htext⟩
      · rename_i text htext
        obtain ⟨c, rfl, hc, hne⟩ := spoken_of_truthy htext
        exact ⟨_, c, model, rfl, toOllama_texts _, hc, hne⟩

theorem openRouterChat_wp (s : Asked × κ) :
    (openRouterChat env messages).Wp (fun _ _ => True) asks (Tried messages s) s := by
  unfold openRouterChat
  split
  · exact .inl rfl
  · refine ⟨trivial, ?_⟩
    rintro answer t rfl
    cases answer with
    | failed message => exact .inr ⟨_, _, rfl, toOpenRouter_texts _, by nofun⟩
    | refused status errorBody => exact .inr ⟨_, _, rfl, toOpenRouter_texts _, by nofun⟩
    | data content model =>
      simp only [bind_def, ret_bind]
      split
      · rename_i htext
        exact .inr ⟨_, _, rfl, toOpenRouter_texts _, silent_of_truthy htext⟩
      · rename_i text htext
        obtain ⟨c, rfl, hc, hne⟩ := spoken_of_truthy htext
        exact ⟨_, c, model, rfl, toOpenRouter_texts _, hc, hne⟩

private theorem providerChat_wp (provider : ProviderName) (s : Asked × κ) :
    (provider.chat env messages).Wp (fun _ _ => True) asks (Tried messages s) s := by
  cases provider with
  | ollama => exact ollamaChat_wp s
  | openrouter => exact openRouterChat_wp s

/-- By induction on the providers: those before the first that speaks are silent. -/
private theorem firstSuccess_wp (providers : List ProviderName) (errors : List String)
    {s : Asked × κ} (hs : Unanswered messages s.1) :
    (firstSuccess env messages providers errors).Wp (fun _ _ => True) asks
      (Post (fun out t => t.2 = s.2 ∧ match out with
        | .inl result => Answered messages t.1 result.content
        | .inr _ => Unanswered messages t.1) fun _ _ => False) s := by
  induction providers generalizing errors s with
  | nil => exact ⟨rfl, hs⟩
  | cons provider rest ih =>
    apply Wp.bind (R := Post (fun out t => Tried messages s out t) fun _ _ => False)
    · apply (wp_attempt _ _ _).mpr
      exact providerChat_wp provider s
    · intro e t h
      exact h
    · intro out t h
      cases out with
      | ok result =>
        obtain ⟨request, content, model, rfl, htexts, hcontent, hne⟩ := h
        refine ⟨rfl, s.1, request, content, model, rfl, hcontent, hne, fun e he => (hs e he).1, ?_⟩
        intro e he
        rcases List.mem_append.mp he with he | he
        · exact (hs e he).2
        · cases List.mem_singleton.mp he
          exact htexts
      | error error =>
        rcases h with rfl | ⟨request, answer, rfl, htexts, hsilent⟩
        · exact ih _ hs
        · apply (ih (errors ++ [provider.name ++ ": " ++ error.message]) ?_).mono
          · intro out t h
            exact h
          · intro e he
            rcases List.mem_append.mp he with he | he
            · exact hs e he
            · cases List.mem_singleton.mp he
              exact ⟨hsilent, htexts⟩

/-- A completion is what the first provider that speaks has said, or the excuse for an image. -/
def Completed (messages : List ProviderMessage) (hasImages : Bool) (asked : Asked)
    (result : ProviderChatResult) : Prop :=
  Answered messages asked result.content ∨
    (hasImages = true ∧ result = visionFallback ∧ Unanswered messages asked)

theorem generateCompletion_wp (hasImages : Bool) (k : κ) :
    (generateCompletion env messages hasImages).Wp (fun _ _ => True) asks
      (Post (fun result t => t.2 = k ∧ Completed messages hasImages t.1 result)
        fun _ t => t.2 = k ∧ Unanswered messages t.1) ([], k) := by
  have hnone : Unanswered messages [] := by simp [Unanswered]
  unfold generateCompletion
  dsimp only
  split
  · exact ⟨rfl, hnone⟩
  · apply (firstSuccess_wp _ [] hnone).bind
    · intro e t h
      exact h.elim
    · rintro out t ⟨hk, hout⟩
      cases out with
      | inl result => exact ⟨hk, .inl hout⟩
      | inr errors =>
        apply (wp_ofExcept _ _ _).mpr
        unfold allFailed
        dsimp only
        split
        · rename_i himages
          exact ⟨hk, .inr ⟨(Bool.and_eq_true_iff.mp himages).2, rfl, hout⟩⟩
        · split
          · exact ⟨hk, hout⟩
          · exact ⟨hk, hout⟩

end Asking

end CloudVM.Assistant

namespace CloudVM.Conversations

open Access Assistant Process

section Logs

variable {Token : Type}

def askedBy : Event (aiInterface Token) → Option (ProviderRequest × ProviderAnswer)
  | ⟨.complete request, answer⟩ => some (request, answer)
  | _ => none

def writtenBy : Event (aiInterface Token) → Option Message
  | ⟨.db (.createMessage _), .ok row⟩ => some row
  | _ => none

/-- The providers asked and the messages stored, in order. -/
def deeds (log : AiLog Token) : Asked × List Message :=
  (log.filterMap askedBy, log.filterMap writtenBy)

theorem deeds_append (log : AiLog Token) (e : Event (aiInterface Token)) :
    deeds (log ++ [e]) =
      ((deeds log).1 ++ (askedBy e).toList, (deeds log).2 ++ (writtenBy e).toList) := by
  simp only [deeds, List.filterMap_append]
  congr 2

/-- Neither a provider is asked nor a message stored. -/
def Aside : AiCall Token → Prop
  | .db (.createMessage _) => False
  | .complete _ => False
  | _ => True

theorem deeds_aside {c : AiCall Token} (hc : Aside c) (log : AiLog Token) (r : c.Answer) :
    deeds (log ++ [⟨c, r⟩]) = deeds log := by
  rw [deeds_append]
  cases c with
  | db c =>
    cases c with
    | createMessage data => exact hc.elim
    | _ => simp [askedBy, writtenBy]
  | complete request => exact hc.elim
  | _ => simp [askedBy, writtenBy]

/-- The row of a message has what was given for it. -/
def rowFits : (c : AiCall Token) → c.Answer → Prop
  | .db (.createMessage data), r => ∀ row, r = .ok row → row = data.row row.id row.createdAt
  | _, _ => True

theorem rowFits_of_effect {c : AiCall Token} {s s' : ConversationStore} {r : c.Answer}
    (h : aiEffect c s r s') : rowFits c r := by
  cases c with
  | db c =>
    cases c with
    | createMessage data =>
      intro row hrow
      rcases h with ⟨created, hr, hdata, -⟩ | ⟨e, hr, -⟩
      · rw [hr] at hrow
        cases hrow
        rw [hdata]
        rfl
      · rw [hr] at hrow
        cases hrow
    | _ => trivial
  | _ => trivial

end Logs

section Chat

variable {Token : Type} {env : AiEnv Token} {user : CurrentUser} {dto : ChatRequestDto}

/-- The first message of a chat request is the user's. -/
def Question (dto : ChatRequestDto) (stored : Message) : Prop :=
  stored.role = .user ∧ stored.content = sanitizeUserMessage dto.message ∧ stored.provider = none

/-- A provider is asked and an answer is stored once the question has been stored. -/
def chatPermits (dto : ChatRequestDto) (log : AiLog Token) : AiCall Token → Prop
  | .db (.createMessage data) =>
    (deeds log = ([], []) ∧ Question dto (data.row "" 0)) ∨
      ∃ stored, (deeds log).2 = [stored] ∧ data.role = .assistant ∧
        data.conversationId = stored.conversationId
  | .complete _ => ∃ stored, (deeds log).2 = [stored]
  | _ => True

/-- The prompt of a request, with the messages the table has found. -/
def promptOf (env : AiEnv Token) (user : CurrentUser) (dto : ChatRequestDto) (ctx : AppContext)
    (found : List Message) : List ProviderMessage :=
  Assistant.buildPromptMessages user (historyMessages dto) (dto.includeContext ≠ some false) ctx
    (sanitizeImages env.maxImageBytes dto.images)
    (detectPromptInjection (sanitizeUserMessage dto.message)) (found.map Message.toMessageRow)

def outOfScope (env : AiEnv Token) (dto : ChatRequestDto) : Bool :=
  isOutOfScopeQuestion env.service.toLowerCase (sanitizeUserMessage dto.message)

/-- The prompt brings its own history, or that of the conversation was asked for. -/
def Found (dto : ChatRequestDto) (conversationId : String) (found : List Message)
    (log : AiLog Token) : Prop :=
  historyMessages dto ≠ [] ∨ ⟨.db (.findMessages conversationId (some 20)), .ok found⟩ ∈ log

/-- What the assistant has said of its own, or a provider to the prompt. -/
inductive Said (env : AiEnv Token) (user : CurrentUser) (dto : ChatRequestDto)
    (conversationId : String) (log : AiLog Token) : Option (PendingAction Token) → String → Prop
  | confirmation (p : PendingAction Token) (hasked : (deeds log).1 = []) :
      Said env user dto conversationId log (some p) (pendingText p)
  | scope (hscope : outOfScope env dto = true) (hasked : (deeds log).1 = []) :
      Said env user dto conversationId log none buildOutOfScopeResponse
  | model (ctx : AppContext) (found : List Message) (result : ProviderChatResult)
      (hscope : outOfScope env dto = false) (hfound : Found dto conversationId found log)
      (h : Completed (promptOf env user dto ctx found)
        (!(sanitizeImages env.maxImageBytes dto.images).isEmpty) (deeds log).1 result) :
      Said env user dto conversationId log none result.content

/-- The question and one answer to it have been stored, in one conversation. -/
structure Exchanged (env : AiEnv Token) (user : CurrentUser) (dto : ChatRequestDto)
    (reply : ChatReply Token) (log : AiLog Token) : Prop where
  stored : ∃ question, (deeds log).2 = [question, reply.message] ∧ Question dto question ∧
    question.conversationId = reply.conversationId
  answer : reply.message.role = .assistant ∧ reply.message.conversationId = reply.conversationId
  said : Said env user dto reply.conversationId log reply.pendingAction reply.message.content

private theorem aside_keeps {α : Type} {p : AiProcess Token α} (h : p.Only Aside)
    (x : Asked × List Message) :
    p.Keeps (chatPermits dto) (logged rowFits) fun log => deeds log = x := by
  apply h.keeps
  · intro log c hc
    cases c with
    | db c =>
      cases c with
      | createMessage data => exact hc.elim
      | _ => trivial
    | complete request => exact hc.elim
    | _ => trivial
  · rintro c log r log' hc hlog ⟨-, rfl⟩
    rw [deeds_aside hc, hlog]

private theorem resolveConversationId_aside (userId : String) :
    (resolveConversationId userId dto : AiProcess Token String).Only Aside := by
  unfold resolveConversationId
  split
  · exact only_bind (only_request trivial) fun _ => trivial
  · apply only_bind
    · apply only_bind (only_request trivial)
      intro found
      cases found <;> trivial
    · intro conversation
      trivial

private theorem fetchAppContext_aside : (fetchAppContext env user).Only Aside := by
  refine ⟨trivial, ?_⟩
  intro t
  apply only_bind (only_ofExcept _)
  intro token
  exact only_bind (only_request trivial) fun _ => only_ofExcept _

private theorem buildPromptMessages_aside (conversationId : String) (ctx : AppContext)
    (images : List String) (detected : Bool) :
    (buildPromptMessages user conversationId dto ctx images detected : AiProcess Token _).Only
      Aside := by
  apply only_bind
  · unfold latestMessages
    split
    · exact only_request trivial
    · trivial
  · intro latest
    trivial

private theorem wp_grows {α : Type} {P : AiLog Token → AiCall Token → Prop}
    {Q : Except Failure α → AiLog Token → Prop} {p : AiProcess Token α} {log : AiLog Token}
    (h : p.Wp P (logged rowFits) Q log) :
    p.Wp P (logged rowFits) (fun out t => Q out t ∧ log ⊆ t) log := by
  induction p generalizing log with
  | ret a => exact ⟨h, List.Subset.refl _⟩
  | raise e => exact ⟨h, List.Subset.refl _⟩
  | call c k ih =>
    refine ⟨h.1, ?_⟩
    intro r t ht
    apply (ih r (h.2 r t ht)).mono
    rintro out t' ⟨hq, hsub⟩
    obtain ⟨-, rfl⟩ := ht
    exact ⟨hq, List.Subset.trans (List.subset_append_left _ _) hsub⟩

private theorem ofProvider_wp {α : Type} {Q : Except Failure α → Asked × List Message → Prop}
    {p : ProviderProcess α} {log : AiLog Token} {stored : Message}
    (hstored : (deeds log).2 = [stored])
    (h : p.Wp (fun _ _ => True) asks Q (deeds log)) :
    (ofProvider p : AiProcess Token α).Wp (chatPermits dto) (logged rowFits)
      (fun out t => Q out (deeds t)) log := by
  have hbeside : p.Wp (fun t _ => t.2 = [stored]) asks Q (deeds log) := wp_beside hstored h
  apply Wp.lift deeds _ _ hbeside
  · intro t c ht
    exact ⟨stored, ht⟩
  · rintro t c r t' ⟨-, rfl⟩
    simp [deeds_append, asks, askedBy, writtenBy]

private theorem buildPromptMessages_wp {log : AiLog Token} (conversationId : String)
    (ctx : AppContext) :
    (buildPromptMessages user conversationId dto ctx (sanitizeImages env.maxImageBytes dto.images)
      (detectPromptInjection (sanitizeUserMessage dto.message))).Wp (chatPermits dto)
      (logged rowFits) (Post (fun prompt t => ∃ found, prompt = promptOf env user dto ctx found ∧
        Found dto conversationId found t) fun _ _ => True) log := by
  unfold buildPromptMessages latestMessages
  by_cases hhistory : (historyMessages dto).isEmpty = true
  · simp only [hhistory, if_true]
    refine ⟨trivial, ?_⟩
    rintro r t ⟨-, rfl⟩
    cases r with
    | error e => trivial
    | ok found => exact ⟨found, rfl, .inr (by simp)⟩
  · simp only [hhistory]
    exact ⟨[], rfl, .inl (by simpa using hhistory)⟩

private theorem storeAnswer_wp {log : AiLog Token} {stored : Message} {conversationId : String}
    {p : Option (PendingAction Token)} {result : ProviderChatResult}
    (hstored : (deeds log).2 = [stored]) (hquestion : Question dto stored)
    (hconversation : stored.conversationId = conversationId)
    (hsaid : ∀ t, log ⊆ t → (deeds t).1 = (deeds log).1 →
      Said env user dto conversationId t p result.content) :
    (storeAnswer conversationId result >>= fun message =>
      (pure { conversationId, message, pendingAction := p } : AiProcess Token (ChatReply Token))).Wp
      (chatPermits dto) (logged rowFits) (Post (Exchanged env user dto) fun _ _ => True) log := by
  refine ⟨.inr ⟨stored, hstored, rfl, hconversation.symm⟩, ?_⟩
  rintro r t ⟨hfits, rfl⟩
  cases r with
  | error e => trivial
  | ok row =>
    have hrow := hfits row rfl
    have hdeeds : deeds (log ++ [⟨.db (.createMessage {
        conversationId
        role := .assistant
        content := result.content
        provider := some result.provider
        model := some result.model }), .ok row⟩]) = ((deeds log).1, [stored, row]) := by
      rw [deeds_append, hstored]
      simp [askedBy, writtenBy]
    refine ⟨⟨stored, by rw [hdeeds], hquestion, hconversation⟩, ?_, ?_⟩
    · rw [hrow]
      exact ⟨rfl, rfl⟩
    · have hcontent : row.content = result.content := by
        rw [hrow]
        rfl
      dsimp only
      rw [hcontent]
      exact hsaid _ (List.subset_append_left _ _) (by rw [hdeeds])

private theorem answer_wp {log : AiLog Token} {stored : Message} {conversationId : String}
    (hdeeds : deeds log = ([], [stored])) (hquestion : Question dto stored)
    (hconversation : stored.conversationId = conversationId) (ctx : AppContext)
    (pendingAction : Option (PendingAction Token)) :
    (answer env user conversationId (sanitizeUserMessage dto.message) dto ctx pendingAction).Wp
      (chatPermits dto) (logged rowFits) (Post (Exchanged env user dto) fun _ _ => True) log := by
  have hstored : (deeds log).2 = [stored] := by rw [hdeeds]
  have hnobody : (deeds log).1 = [] := by rw [hdeeds]
  unfold answer
  cases pendingAction with
  | some p =>
    apply storeAnswer_wp hstored hquestion hconversation
    intro t _ hasked
    exact .confirmation p (hasked.trans hnobody)
  | none =>
    dsimp only
    split
    · rename_i hscope
      apply storeAnswer_wp hstored hquestion hconversation
      intro t _ hasked
      exact .scope hscope (hasked.trans hnobody)
    · rename_i hscope
      have hquiet : (buildPromptMessages user conversationId dto ctx
          (sanitizeImages env.maxImageBytes dto.images)
          (detectPromptInjection (sanitizeUserMessage dto.message)) : AiProcess Token _).Only Aside :=
        buildPromptMessages_aside conversationId ctx _ _
      apply ((aside_keeps hquiet _ log hdeeds).and (buildPromptMessages_wp conversationId ctx)).bind
      · intro e t _
        trivial
      · rintro prompt t ⟨ht, found, rfl, hfound⟩
        have hcompletion := @generateCompletion_wp _ env.providers (promptOf env user dto ctx found)
          (!(sanitizeImages env.maxImageBytes dto.images).isEmpty) [stored]
        rw [← ht] at hcompletion
        apply (wp_grows (ofProvider_wp (by rw [ht]) hcompletion)).bind
        · intro e t _
          trivial
        · rintro completion t' ⟨⟨hk, hcompleted⟩, hsub⟩
          apply storeAnswer_wp hk hquestion hconversation
          intro t'' hsub' hasked
          apply Said.model ctx found completion (by simpa [outOfScope] using hscope)
          · rcases hfound with hown | hfound
            · exact .inl hown
            · exact .inr (hsub' (hsub hfound))
          · rw [hasked]
            exact hcompleted

private theorem chat_exchange_wp :
    (chat env user dto).Wp (chatPermits dto) (logged rowFits)
      (Post (Exchanged env user dto) fun _ _ => True) [] := by
  have hquiet : deeds ([] : AiLog Token) = ([], []) := rfl
  apply (aside_keeps (resolveConversationId_aside user.userId) _ [] hquiet).bind
  · intro e t _
    trivial
  · intro conversationId t ht
    apply (aside_keeps fetchAppContext_aside _ t ht).bind
    · intro e t _
      trivial
    · intro ctx t ht
      have hdetect : (detectPendingAction env (sanitizeUserMessage dto.message) user ctx.vms).Only
          Aside := ⟨trivial, fun _ => only_ofExcept _⟩
      apply (aside_keeps hdetect _ t ht).bind
      · intro e t _
        trivial
      · intro pendingAction t ht
        refine ⟨.inl ⟨ht, rfl, rfl, rfl⟩, ?_⟩
        rintro r t' ⟨hfits, rfl⟩
        cases r with
        | error e => trivial
        | ok row =>
          have hrow := hfits row rfl
          have hquestion : Question dto row := by
            rw [hrow]
            exact ⟨rfl, rfl, rfl⟩
          apply answer_wp _ hquestion
          · rw [hrow]
            rfl
          · rw [deeds_append, ht]
            simp [askedBy, writtenBy]

end Chat

section Runs

variable {Token : Type} (env : AiEnv Token)

/-- What a chat has stored so far: nothing, the question, or the question and its answer. -/
def Underway (dto : ChatRequestDto) (stored : List Message) : Prop :=
  stored = [] ∨ ∃ question, Question dto question ∧ (stored = [question] ∨
    ∃ answer, stored = [question, answer] ∧ answer.role = .assistant ∧
      answer.conversationId = question.conversationId)

/-- Whenever a provider was asked, the question was stored already, and no answer to it. -/
def AskedInTurn (dto : ChatRequestDto) (log : AiLog Token) : Prop :=
  ∀ before request answer after, log = before ++ ⟨.complete request, answer⟩ :: after →
    ∃ question, Question dto question ∧ (deeds before).2 = [question]

def exchangeContract : (aiServer env).Contract where
  fits := rowFits
  permits := fun q log c => ∀ dto, q.action = .chat dto → chatPermits dto log c
  returns := fun q out log => ∀ dto, q.action = .chat dto →
    ∃ reply, out = .chat reply ∧ Exchanged env q.user dto reply log
  sound := fun _ _ _ _ _ _ h => rowFits_of_effect h
  holds := by
    rintro ⟨user, action⟩
    cases action with
    | chat dto =>
      have hchat : (AiRequest.handle env ⟨user, .chat dto⟩).Wp (chatPermits dto) (logged rowFits)
          (Post (fun out log => ∃ reply, out = .chat reply ∧ Exchanged env user dto reply log)
            fun _ _ => True) [] := by
        have hasked : (chat env user dto).Wp (chatPermits dto) (logged rowFits)
            (Post (Exchanged env user dto) fun _ _ => True) [] := chat_exchange_wp
        apply hasked.bind
        · intro e log _
          trivial
        · intro reply log h
          exact ⟨reply, rfl, h⟩
      apply (hchat.permits_mono _).mono
      · intro out log h
        cases out with
        | error e => trivial
        | ok out =>
          rintro dto' heq
          cases heq
          exact h
      · rintro log c h dto' heq
        cases heq
        exact h
    | _ =>
      apply (wp_true (fun _ _ _ h => by cases h) _ []).mono
      rintro (e | out) log -
      · trivial
      · nofun

variable {env} {s : ConversationStore}
  {trace : List (StageLabel (aiInterface Token) (AiRequest Token) ×
    Stage (aiInterface Token) Failure (AiReply Token) (AiRequest Token) ConversationStore)}
  {x : Stage (aiInterface Token) Failure (AiReply Token) (AiRequest Token) ConversationStore}

private theorem underway_act {dto : ChatRequestDto} {log : AiLog Token} {c : AiCall Token}
    {r : c.Answer} (h : Underway dto (deeds log).2) (hp : chatPermits dto log c)
    (hr : rowFits c r) : Underway dto (deeds (log ++ [⟨c, r⟩])).2 := by
  by_cases hc : Aside c
  · rwa [deeds_aside hc]
  · rw [deeds_append]
    cases c with
    | complete request => simpa [writtenBy] using h
    | db c =>
      cases c with
      | createMessage data =>
        cases r with
        | error e => simpa [writtenBy] using h
        | ok row =>
          have hrow := hr row rfl
          rcases hp with ⟨hnone, hquestion⟩ | ⟨stored, hstored, hrole, hconversation⟩
          · refine .inr ⟨row, ?_, .inl (by simp [hnone, writtenBy])⟩
            rw [hrow]
            exact hquestion
          · rcases h with hnone | ⟨question, hq, hone | ⟨answer, htwo, -⟩⟩
            · rw [hnone] at hstored
              cases hstored
            · obtain rfl : question = stored := by
                rw [hone] at hstored
                exact (List.cons.inj hstored).1
              refine .inr ⟨question, hq, .inr ⟨row, by simp [hone, writtenBy], ?_⟩⟩
              rw [hrow]
              exact ⟨hrole, hconversation⟩
            · rw [htwo] at hstored
              cases hstored
      | _ => exact (hc trivial).elim
    | _ => exact (hc trivial).elim

private theorem askedInTurn_act {dto : ChatRequestDto} {log : AiLog Token} {c : AiCall Token}
    {r : c.Answer} (hu : Underway dto (deeds log).2) (h : AskedInTurn dto log)
    (hp : chatPermits dto log c) : AskedInTurn dto (log ++ [⟨c, r⟩]) := by
  intro before request answer after hlog
  rcases List.eq_nil_or_concat after with rfl | ⟨after, last, rfl⟩
  · obtain ⟨rfl, hlast⟩ := List.append_inj' hlog rfl
    cases hlast
    obtain ⟨stored, hstored⟩ := hp
    rcases hu with hnone | ⟨question, hquestion, hone | ⟨reply, htwo, -⟩⟩
    · rw [hnone] at hstored
      cases hstored
    · exact ⟨question, hquestion, hone⟩
    · rw [htwo] at hstored
      cases hstored
  · rw [List.concat_eq_append, ← List.cons_append, ← List.append_assoc] at hlog
    exact h before request answer after (List.append_inj' hlog rfl).1

private theorem messages_of_effect {c : AiCall Token} {s s' : ConversationStore} {r : c.Answer}
    {m : Message} (h : aiEffect c s r s') (hm : m ∈ s.messages.rows) : m ∈ s'.messages.rows := by
  have hdone : ∀ {d : DbCall} {row : d.Row}, d.Done s row s' → m ∈ s'.messages.rows := by
    intro d row hd
    have hgrows : ∀ {rows messages}, s.Grows rows messages s' → m ∈ s'.messages.rows := by
      intro rows messages hgrows
      rw [hgrows.messages]
      exact List.mem_append_left _ hm
    cases d with
    | createConversation userId title => exact hgrows hd.2.2.2.2.2
    | createMessage data => exact hgrows hd.2.2.2
    | listConversations userId => rwa [hd.2.2.2]
    | findConversation id userId => rwa [hd.2]
    | findMessages conversationId take => rwa [hd.2]
  cases c with
  | db c =>
    rcases h with ⟨row, -, h⟩ | ⟨e, -, rfl | ⟨row, h⟩⟩
    · exact hdone h
    · exact hm
    · exact hdone h
  | now => rwa [h.2]
  | fetchContext token => rwa [show s' = s from h]
  | postAction request => rwa [show s' = s from h]
  | complete request => rwa [show s' = s from h]

private theorem stored_in_tables (h : Run (aiServer env).Step ⟨s, []⟩ trace x) :
    ∀ task ∈ x.tasks, ∀ m ∈ (deeds task.log).2, m ∈ x.state.messages.rows := by
  induction h with
  | nil => simp
  | snoc hr hs ih =>
    cases hs with
    | begin q =>
      intro task ht
      rcases List.mem_append.mp ht with ht | ht
      · exact ih task ht
      · obtain rfl := List.mem_singleton.mp ht
        nofun
    | @act s s' tasks i q log c k r hi he =>
      intro task ht m hm
      rcases mem_set_cases ht with rfl | ⟨j, -, hj⟩
      · rw [deeds_append] at hm
        rcases List.mem_append.mp hm with hm | hm
        · exact messages_of_effect he (ih _ (List.mem_of_getElem? hi) m hm)
        · cases c with
          | db c =>
            cases c with
            | createMessage data =>
              rcases he with ⟨row, hrow, -, -, -, hgrows⟩ | ⟨e, hrow, -⟩
              · subst hrow
                obtain rfl : m = row := by simpa [writtenBy] using hm
                rw [hgrows.messages]
                simp
              · subst hrow
                cases hm
            | _ => cases hm
          | _ => cases hm
      · exact messages_of_effect he (ih task (List.mem_of_getElem? hj) m hm)
    | crash e hi hl =>
      intro task ht
      rcases mem_set_cases ht with rfl | ⟨j, -, hj⟩
      · have htask := ih _ (List.mem_of_getElem? hi)
        exact htask
      · exact ih task (List.mem_of_getElem? hj)
    | change hc =>
      obtain ⟨t, rfl⟩ := hc
      exact ih

/-- Whatever else the service is doing, a chat stores its question before its answer and before it
asks a provider, both stay, and one that replies has stored exactly these two, where the answer is
what the assistant has said to the question. -/
theorem chats_are_exchanged (h : Run (aiServer env).Step ⟨s, []⟩ trace x) {i : ℕ}
    {task : Task (aiInterface Token) Failure (AiReply Token) (AiRequest Token)}
    (hi : x.tasks[i]? = some task) {dto : ChatRequestDto} (hchat : task.request.action = .chat dto) :
    (∀ m ∈ (deeds task.log).2, m ∈ x.state.messages.rows) ∧ Underway dto (deeds task.log).2 ∧
      AskedInTurn dto task.log ∧ ∀ out, task.rest = .ret out →
        ∃ reply, out = .chat reply ∧ Exchanged env task.request.user dto reply task.log := by
  have hmem := List.mem_of_getElem? hi
  have hturn := (exchangeContract env).log_invariant
    (J := fun q log => ∀ dto, q.action = .chat dto →
      Underway dto (deeds log).2 ∧ AskedInTurn dto log)
    (fun _ _ _ => ⟨.inl rfl, by simp [AskedInTurn]⟩)
    (by
      intro q log c r hJ hp hr dto hq
      obtain ⟨hunderway, hasked⟩ := hJ dto hq
      exact ⟨underway_act hunderway (hp dto hq) hr, askedInTurn_act hunderway hasked (hp dto hq)⟩) h
  have hkept := (exchangeContract env).kept h task hmem
  obtain ⟨hunderway, hasked⟩ := hturn task hmem dto hchat
  refine ⟨stored_in_tables h task hmem, hunderway, hasked, ?_⟩
  intro out hout
  rw [Server.Contract.Kept, hout] at hkept
  exact hkept dto hchat

end Runs

section Sample

private abbrev PlainToken := JwtPayload × String × ℕ

private def plainEnv : AiEnv PlainToken := ⟨plainService, {}, 1048576⟩

private def greeting : AiRequest PlainToken :=
  ⟨⟨"u", "u@example.com", "USER"⟩, .chat { message := "hi" }⟩

private def greetings : Table Conversation.id := ⟨[⟨"c", "u", some "hi", 0, 0⟩], by decide⟩

private def questionRow : Message where
  id := "m1"
  conversationId := "c"
  role := .user
  content := "hi"
  createdAt := 0

private def answerRow : Message where
  id := "m2"
  conversationId := "c"
  role := .assistant
  content := "Hello."
  createdAt := 0
  provider := some "ollama"
  model := some "mistral"

private def emptyStore : ConversationStore := ⟨.empty, .empty, 0, by simp⟩

private def openedStore : ConversationStore := ⟨greetings, .empty, 0, by simp⟩

private def askedStore : ConversationStore :=
  ⟨greetings, ⟨[questionRow], by decide⟩, 0, by decide⟩

private def answeredStore : ConversationStore :=
  ⟨greetings, ⟨[questionRow, answerRow], by decide⟩, 0, by decide⟩

private theorem act_alone {s s' : ConversationStore} {q : AiRequest PlainToken}
    {log : AiLog PlainToken} {c : AiCall PlainToken}
    {k : c.Answer → AiProcess PlainToken (AiReply PlainToken)}
    (h : ∃ trace, Run (aiServer plainEnv).Step ⟨emptyStore, []⟩ trace ⟨s, [⟨q, log, .call c k⟩]⟩)
    (r : c.Answer) (he : aiEffect c s r s') :
    ∃ trace, Run (aiServer plainEnv).Step ⟨emptyStore, []⟩ trace
      ⟨s', [⟨q, log ++ [⟨c, r⟩], k r⟩]⟩ := by
  obtain ⟨trace, h⟩ := h
  exact ⟨_, h.snoc (.act (i := 0) rfl he)⟩

/-- A greeting is answered by the first provider. -/
theorem chats_are_exchanged_greeting :
    ∃ (trace : _) (log : AiLog PlainToken) (reply : ChatReply PlainToken),
      Run (aiServer plainEnv).Step ⟨emptyStore, []⟩ trace
        ⟨answeredStore, [⟨greeting, log, .ret (.chat reply)⟩]⟩ ∧
      reply.message = answerRow ∧
      Exchanged plainEnv greeting.user { message := "hi" } reply log := by
  have hstart : Run (aiServer plainEnv).Step ⟨emptyStore, []⟩ [] ⟨emptyStore, []⟩ := .nil
  have hbegin : ∃ trace, Run (aiServer plainEnv).Step ⟨emptyStore, []⟩ trace
      ⟨emptyStore, [⟨greeting, [], (aiServer plainEnv).handler greeting⟩]⟩ :=
    ⟨_, hstart.snoc (.begin _)⟩
  have hopened : DbCall.Done (.createConversation "u" "hi") emptyStore ⟨"c", "u", some "hi", 0, 0⟩
      openedStore := ⟨rfl, rfl, rfl, rfl, rfl, ⟨rfl, rfl, rfl⟩⟩
  have hasked : DbCall.Done (.createMessage ⟨"c", .user, "hi", none, none⟩) openedStore questionRow
      askedStore := ⟨rfl, by decide, rfl, ⟨rfl, rfl, rfl⟩⟩
  have hfound : DbCall.Done (.findMessages "c" (some 20)) askedStore [questionRow] askedStore :=
    ⟨⟨[questionRow], .refl _, by simp, rfl⟩, rfl⟩
  have hanswered : DbCall.Done
      (.createMessage ⟨"c", .assistant, "Hello.", some "ollama", some "mistral"⟩) askedStore answerRow
      answeredStore := ⟨rfl, by decide, rfl, ⟨rfl, rfl, rfl⟩⟩
  have hresolved := act_alone hbegin (.ok _) (.inl ⟨_, rfl, hopened⟩)
  have htoken := act_alone hresolved (0 : ℕ) ⟨rfl, rfl⟩
  have hcontext := act_alone htoken (.ok ⟨none, none, none⟩) rfl
  have hdetected := act_alone hcontext (0 : ℕ) ⟨rfl, rfl⟩
  have hquestion := act_alone hdetected (.ok _) (.inl ⟨_, rfl, hasked⟩)
  have hlatest := act_alone hquestion (.ok _) (.inl ⟨_, rfl, hfound⟩)
  have hcompleted := act_alone hlatest (.data (some "Hello.") (some "mistral")) rfl
  obtain ⟨trace, hrun⟩ := act_alone hcompleted (.ok _) (.inl ⟨_, rfl, hanswered⟩)
  obtain ⟨-, -, -, hreply⟩ := chats_are_exchanged hrun (i := 0) rfl rfl
  obtain ⟨reply, hout, hexchanged⟩ := hreply (.chat ⟨"c", answerRow, none⟩) rfl
  cases hout
  exact ⟨trace, _, _, hrun, rfl, hexchanged⟩

end Sample

end CloudVM.Conversations
