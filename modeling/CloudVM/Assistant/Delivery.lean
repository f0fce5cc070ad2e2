import CloudVM.Access.Alike
import CloudVM.Assistant.Stream

/-!
# What the page makes of an answer

Whatever the connection loses and however the page is used meanwhile, a message of the page under
the id of a stored message shows a beginning of it or says that it took too long. Once the promise
of a stream is resolved, the page shows the whole answer.
-/

namespace CloudVM.Conversations

open Access Assistant Text

variable {Token : Type}

section Texts

theorem flatten_tokens (content : String) :
    ((tokens content).map String.toList).flatten = content.toList := by
  rw [tokens, List.map_map]
  have hid : String.toList ∘ String.ofList = id := by
    funext piece
    simp
  rw [hid, List.map_id, Pieces.flatten_chunks]

theorem localAssistantId_inj {r r' : String} (h : localAssistantId r = localAssistantId r') :
    r = r' := by
  have htexts := congrArg String.toList h
  exact String.toList_inj.mp (by simpa [localAssistantId] using htexts)

theorem localId_assistant (r : String) : LocalId (localAssistantId r) := by
  have happend : "local-".toList ++ ("assistant-" ++ r).toList = (localAssistantId r).toList := by
    simp [localAssistantId]
  exact ⟨_, happend⟩

theorem NoteId.ne_assistant {id r : String} (h : NoteId id) : id ≠ localAssistantId r := by
  rintro rfl
  apply h.2
  have happend : "local-assistant-".toList ++ r.toList = (localAssistantId r).toList := by
    simp [localAssistantId]
  exact ⟨_, happend⟩

def about (requestId : String) (events : List (StreamEvent Token)) : List (StreamEvent Token) :=
  events.filter fun e => e.requestId = requestId

variable {r r' : String}

@[simp] theorem about_nil : about r ([] : List (StreamEvent Token)) = [] := rfl

@[simp] theorem about_append (events later : List (StreamEvent Token)) :
    about r (events ++ later) = about r events ++ about r later := List.filter_append ..

theorem about_cons_self {e : StreamEvent Token} (events : List (StreamEvent Token))
    (h : e.requestId = r) : about r (e :: events) = e :: about r events := by
  simp [about, h]

theorem about_cons_of_ne {e : StreamEvent Token} (events : List (StreamEvent Token))
    (h : e.requestId ≠ r) : about r (e :: events) = about r events := by
  simp [about, h]

theorem about_of_all {events : List (StreamEvent Token)} (h : ∀ e ∈ events, e.requestId = r) :
    about r events = events := List.filter_eq_self.mpr (by simpa using h)

theorem about_of_none {events : List (StreamEvent Token)} (h : ∀ e ∈ events, e.requestId ≠ r) :
    about r events = [] := List.filter_eq_nil_iff.mpr (by simpa using h)

theorem requestId_remaining (rest : List String) :
    ∀ e ∈ (remaining r rest : List (StreamEvent Token)), e.requestId = r := by
  intro e he
  rcases List.mem_append.mp he with he | he
  · obtain ⟨token, -, rfl⟩ := List.mem_map.mp he
    rfl
  · obtain rfl := List.mem_singleton.mp he
    rfl

theorem requestId_streamed (result : Except String (ChatReply Token)) :
    ∀ e ∈ streamed r result, e.requestId = r := by
  intro e he
  cases result with
  | error message =>
    obtain rfl := List.mem_singleton.mp he
    rfl
  | ok result =>
    rcases List.mem_cons.mp he with rfl | he
    · rfl
    · exact requestId_remaining _ e he

end Texts

section Traffic

namespace Exchange

variable (x : Exchange Token)

/-- The requests that are on their way or being worked on. -/
def asked : List String := x.sent.map (·.answeredAs "") ++ x.waiting.map Prod.fst

/-- A request is answered once, and only then there are events for it. -/
structure Traffic (x : Exchange Token) : Prop where
  identified : ∀ p ∈ x.sent, ∀ generated, p.answeredAs generated = p.answeredAs ""
  askedOnce : x.asked.Nodup
  askedDrawn : ∀ r ∈ x.asked, r ∈ x.drawn
  events : ∀ e ∈ x.events, e.requestId ∈ x.drawn ∧ e.requestId ∉ x.asked
  answered : ∀ a ∈ x.answers, a.1 ∈ x.drawn ∧ a.1 ∉ x.asked
  keys : ∀ a ∈ x.answers, ∀ b ∈ x.answers, a.1 = b.1 → a = b
  ids : ∀ a ∈ x.answers, ∀ b ∈ x.answers, a.2.message.id = b.2.message.id → a = b
  stored : ∀ a ∈ x.answers, a.2.message ∈ x.stored.rows
  names : ∀ a ∈ x.answers, a.2.message.id ≠ "" ∧ a.2.conversationId ≠ ""
  storedIds : ∀ row ∈ x.stored.rows, ¬ LocalId row.id

variable {x} {y : Exchange Token} {l : ExchangeLabel}

theorem mem_asked {r : String} :
    r ∈ x.asked ↔ (∃ p ∈ x.sent, p.answeredAs "" = r) ∨ ∃ w ∈ x.waiting, w.1 = r := by
  simp only [asked, List.mem_append, List.mem_map]

private theorem Traffic.of_page {page : AssistantChat Token} (h : x.Traffic) :
    ({ x with page } : Exchange Token).Traffic :=
  ⟨h.identified, h.askedOnce, h.askedDrawn, h.events, h.answered, h.keys, h.ids, h.stored, h.names,
    h.storedIds⟩

private theorem Traffic.leave {r : String} {socket : AiSocket} {sent : List AiChatPayload}
    {waiting : List (String × ChatRequestDto)} {sends : List (StreamEvent Token)}
    (hsent : sent ⊆ x.sent)
    (hperm : x.asked.Perm (r :: (sent.map (·.answeredAs "") ++ waiting.map Prod.fst)))
    (hsends : ∀ e ∈ sends, e.requestId = r) (h : x.Traffic) :
    ({ x with socket, sent, waiting, events := x.events ++ sends } : Exchange Token).Traffic := by
  have hnodup := (hperm.nodup_iff.mp h.askedOnce)
  have hsub : ∀ r' ∈ sent.map (·.answeredAs "") ++ waiting.map Prod.fst, r' ∈ x.asked := by
    intro r' hr'
    exact hperm.mem_iff.mpr (List.mem_cons_of_mem _ hr')
  refine ⟨?_, (List.nodup_cons.mp hnodup).2, ?_, ?_, ?_, h.keys, h.ids, h.stored, h.names,
    h.storedIds⟩
  · intro p hp
    exact h.identified p (hsent hp)
  · intro r' hr'
    exact h.askedDrawn r' (hsub r' hr')
  · intro e he
    rcases List.mem_append.mp he with he | he
    · obtain ⟨hdrawn, hout⟩ := h.events e he
      exact ⟨hdrawn, fun hin => hout (hsub _ hin)⟩
    · rw [hsends e he]
      exact ⟨h.askedDrawn r (hperm.mem_iff.mpr List.mem_cons_self), (List.nodup_cons.mp hnodup).1⟩
  · intro a ha
    obtain ⟨hdrawn, hout⟩ := h.answered a ha
    exact ⟨hdrawn, fun hin => hout (hsub _ hin)⟩

private theorem answeredAs_some {p : AiChatPayload} {r : String} (hid : p.requestId = some r)
    (hne : r ≠ "") (generated : String) : p.answeredAs generated = r := by
  rw [AiChatPayload.answeredAs, hid, truthy_some hne]
  rfl

private theorem perm_head {p : AiChatPayload} {sent : List AiChatPayload}
    (hsent : x.sent = p :: sent) : x.asked.Perm
      (p.answeredAs "" :: (sent.map (·.answeredAs "") ++ x.waiting.map Prod.fst)) := by
  rw [asked, hsent]
  exact List.Perm.refl _

private theorem perm_middle {before after : List (String × ChatRequestDto)} {r : String}
    {dto : ChatRequestDto} (hwaiting : x.waiting = before ++ (r, dto) :: after) : x.asked.Perm
      (r :: (x.sent.map (·.answeredAs "") ++ (before ++ after).map Prod.fst)) := by
  rw [asked, hwaiting, List.map_append, List.map_cons, List.map_append, ← List.append_assoc,
    ← List.append_assoc]
  exact List.perm_middle

theorem traffic_step (h : x.Traffic) (hs : Exchange.Step x l y) : y.Traffic := by
  cases hs with
  | @ask requestId conversationId p hid hne hfresh =>
    have hout : requestId ∉ x.asked := fun hin => hfresh (h.askedDrawn _ hin)
    have hasked : ∀ r', r' ∈ ((x.sent ++ [p]).map (·.answeredAs "") ++ x.waiting.map Prod.fst) ↔
        r' = requestId ∨ r' ∈ x.asked := by
      intro r'
      rw [mem_asked]
      simp only [List.map_append, List.map_cons, List.map_nil, answeredAs_some hid hne,
        List.mem_append, List.mem_map, List.mem_singleton]
      rw [or_assoc, or_left_comm]
    refine ⟨?_, ?_, ?_, ?_, ?_, h.keys, h.ids, h.stored, h.names, h.storedIds⟩
    · intro p' hp' generated
      rcases List.mem_append.mp hp' with hp' | hp'
      · exact h.identified p' hp' generated
      · obtain rfl := List.mem_singleton.mp hp'
        rw [answeredAs_some hid hne, answeredAs_some hid hne]
    · have hperm : ((x.sent ++ [p]).map (·.answeredAs "") ++ x.waiting.map Prod.fst).Perm
          (requestId :: x.asked) := by
        rw [List.map_append, List.map_cons, List.map_nil, answeredAs_some hid hne,
          List.append_assoc]
        exact List.perm_middle
      exact hperm.nodup_iff.mpr (List.nodup_cons.mpr ⟨hout, h.askedOnce⟩)
    · intro r' hr'
      rcases (hasked r').mp hr' with rfl | hr'
      · exact List.mem_cons_self
      · exact List.mem_cons_of_mem _ (h.askedDrawn r' hr')
    · intro e he
      obtain ⟨hdrawn, hnot⟩ := h.events e he
      refine ⟨List.mem_cons_of_mem _ hdrawn, fun hin => ?_⟩
      rcases (hasked _).mp hin with heq | hin
      · exact hfresh (heq ▸ hdrawn)
      · exact hnot hin
    · intro a ha
      obtain ⟨hdrawn, hnot⟩ := h.answered a ha
      refine ⟨List.mem_cons_of_mem _ hdrawn, fun hin => ?_⟩
      rcases (hasked _).mp hin with heq | hin
      · exact hfresh (heq ▸ hdrawn)
      · exact hnot hin
  | @refuse p sent message socket now generated hsent hchat =>
    have hmem : p ∈ x.sent := by simp [hsent]
    apply Traffic.leave (by simp [hsent]) (perm_head hsent) _ h
    intro e he
    obtain rfl := List.mem_singleton.mp he
    exact h.identified p hmem generated
  | @accept p sent user dto socket now generated hsent hchat =>
    have hmem : p ∈ x.sent := by simp [hsent]
    have hperm : x.asked.Perm (sent.map (·.answeredAs "") ++
        (x.waiting ++ [(p.answeredAs generated, dto)]).map Prod.fst) := by
      apply (perm_head hsent).trans
      rw [h.identified p hmem generated, List.map_append, ← List.append_assoc]
      exact (List.perm_append_singleton _ _).symm
    refine ⟨?_, hperm.nodup_iff.mp h.askedOnce, ?_, ?_, ?_, h.keys, h.ids, h.stored, h.names,
      h.storedIds⟩
    · intro p' hp'
      exact h.identified p' (by simp [hsent, hp'])
    · intro r' hr'
      exact h.askedDrawn r' (hperm.mem_iff.mpr hr')
    · intro e he
      obtain ⟨hdrawn, hout⟩ := h.events e he
      exact ⟨hdrawn, fun hin => hout (hperm.mem_iff.mpr hin)⟩
    · intro a ha
      obtain ⟨hdrawn, hout⟩ := h.answered a ha
      exact ⟨hdrawn, fun hin => hout (hperm.mem_iff.mpr hin)⟩
  | @answer requestId dto before after result hwaiting hids hfresh =>
    have hperm := perm_middle hwaiting
    have hleft : ({ x with
        waiting := before ++ after
        events := x.events ++ streamed requestId (.ok result) } : Exchange Token).Traffic :=
      Traffic.leave (fun _ hp => hp) hperm (requestId_streamed (.ok result)) h
    have hrequest : requestId ∈ x.asked := hperm.mem_iff.mpr List.mem_cons_self
    have hfree : ∀ a ∈ x.answers, a.2.message.id ≠ result.message.id := by
      intro a ha heq
      exact hfresh (heq ▸ List.mem_map_of_mem (h.stored a ha))
    have hnew : ∀ a ∈ x.answers, a.1 ≠ requestId := by
      rintro a ha rfl
      exact (h.answered a ha).2 hrequest
    refine ⟨hleft.identified, hleft.askedOnce, hleft.askedDrawn, hleft.events, ?_, ?_, ?_, ?_, ?_, ?_⟩
    · intro a ha
      rcases List.mem_append.mp ha with ha | ha
      · exact hleft.answered a ha
      · obtain rfl := List.mem_singleton.mp ha
        exact ⟨h.askedDrawn _ hrequest,
          (List.nodup_cons.mp (hperm.nodup_iff.mp h.askedOnce)).1⟩
    · intro a ha b hb heq
      rcases List.mem_append.mp ha with ha | ha
      · rcases List.mem_append.mp hb with hb | hb
        · exact h.keys a ha b hb heq
        · obtain rfl := List.mem_singleton.mp hb
          exact (hnew a ha heq).elim
      · obtain rfl := List.mem_singleton.mp ha
        rcases List.mem_append.mp hb with hb | hb
        · exact (hnew b hb heq.symm).elim
        · exact (List.mem_singleton.mp hb).symm
    · intro a ha b hb heq
      rcases List.mem_append.mp ha with ha | ha
      · rcases List.mem_append.mp hb with hb | hb
        · exact h.ids a ha b hb heq
        · obtain rfl := List.mem_singleton.mp hb
          exact (hfree a ha heq).elim
      · obtain rfl := List.mem_singleton.mp ha
        rcases List.mem_append.mp hb with hb | hb
        · exact (hfree b hb heq.symm).elim
        · exact (List.mem_singleton.mp hb).symm
    · intro a ha
      rw [Table.rows_insert]
      rcases List.mem_append.mp ha with ha | ha
      · exact List.mem_append_left _ (h.stored a ha)
      · obtain rfl := List.mem_singleton.mp ha
        simp
    · intro a ha
      rcases List.mem_append.mp ha with ha | ha
      · exact h.names a ha
      · obtain rfl := List.mem_singleton.mp ha
        exact hids.2
    · intro row hrow
      rcases List.mem_append.mp hrow with hrow | hrow
      · exact h.storedIds row hrow
      · obtain rfl := List.mem_singleton.mp hrow
        exact hids.1
  | @fail requestId dto before after message hwaiting =>
    exact Traffic.leave (fun _ hp => hp) (perm_middle hwaiting) (requestId_streamed (.error message)) h
  | @deliver event events hevents =>
    refine ⟨h.identified, h.askedOnce, h.askedDrawn, ?_, h.answered, h.keys, h.ids, h.stored, h.names,
      h.storedIds⟩
    intro e he
    exact h.events e (by simp [hevents, he])
  | reconnect user =>
    refine ⟨by simp, by simp [asked], by simp [asked], by simp, ?_, h.keys, h.ids, h.stored, h.names,
      h.storedIds⟩
    intro a ha
    exact ⟨(h.answered a ha).1, by simp [asked]⟩
  | timeout requestId => exact h.of_page
  | unmount => exact h.of_page
  | store row hid hfresh =>
    refine ⟨h.identified, h.askedOnce, h.askedDrawn, h.events, h.answered, h.keys, h.ids, ?_, h.names,
      ?_⟩
    · intro a ha
      exact List.mem_append_left _ (h.stored a ha)
    · intro row' hrow'
      rcases List.mem_append.mp hrow' with hrow' | hrow'
      · exact h.storedIds row' hrow'
      · obtain rfl := List.mem_singleton.mp hrow'
        exact hid
  | history rows hrows => exact h.of_page
  | note msg hid => exact h.of_page
  | reply row pendingAction hrow hother => exact h.of_page
  | confirm messageId => exact h.of_page

end Exchange

end Traffic

section Pages

/-- What a message of the page shows of the stored one. -/
def ChatUiMessage.Fits (m : ChatUiMessage Token) (row : Message) : Prop :=
  m.content.toList <+: row.content.toList ∨ m.content = tookTooLong

/-- The whole answer is there; an action may have been confirmed, or is not stored. -/
structure ChatUiMessage.Whole (m : ChatUiMessage Token) (reply : ChatReply Token) : Prop where
  content : m.content = reply.message.content
  provider : m.provider = reply.message.provider
  model : m.model = reply.message.model
  pendingAction : m.pendingAction = none ∨ m.pendingAction = reply.pendingAction

namespace AssistantChat

variable {page : AssistantChat Token} {a : ActiveStreamState Token} {id : String}
  {f : ChatUiMessage Token → ChatUiMessage Token} {m : ChatUiMessage Token}

theorem during_eq_self {r : String} {g : ActiveStreamState Token → AssistantChat Token}
    (h : ∀ a, page.active = some a → r ≠ a.requestId) : page.during r g = page := by
  unfold during
  cases hactive : page.active with
  | none => rfl
  | some a => exact if_neg (h a hactive)

theorem during_active {g : ActiveStreamState Token → AssistantChat Token}
    (hactive : page.active = some a) : page.during a.requestId g = g a := by
  simp [during, hactive]

theorem receive_eq_self {e : StreamEvent Token}
    (h : ∀ a, page.active = some a → e.requestId ≠ a.requestId) : page.receive e = page := by
  cases e <;> exact during_eq_self h

theorem mem_patch (h : m ∈ (page.patch id f).messages) :
    (∃ old ∈ page.messages, old.id = id ∧ m = f old) ∨ (m ∈ page.messages ∧ m.id ≠ id) := by
  obtain ⟨old, hold, rfl⟩ := List.mem_map.mp h
  by_cases hid : old.id = id
  · exact .inl ⟨old, hold, hid, by simp [hid]⟩
  · exact .inr ⟨by simpa [hid] using hold, by simp [hid]⟩

end AssistantChat

namespace Exchange

/-- What holds of every message of the page. -/
structure Legit (x : Exchange Token) (m : ChatUiMessage Token) : Prop where
  drawn : ∀ r, m.id = localAssistantId r → r ∈ x.drawn
  shown : ¬ LocalId m.id → ∃ row ∈ x.stored.rows, row.id = m.id ∧ m.Fits row
  whole : ∀ r c reply, (r, .ok c) ∈ x.page.settled → (r, reply) ∈ x.answers →
    m.id = reply.message.id → m.Whole reply

/-- The message of a stream whose answer has not come is empty. -/
structure Unnamed (x : Exchange Token) (a : ActiveStreamState Token) : Prop where
  id : a.assistantId = localAssistantId a.requestId
  pendingAction : a.pendingAction = none
  events : about a.requestId x.events = [] ∨
    (∃ message, about a.requestId x.events = [.error a.requestId message]) ∨
    ∃ reply, (a.requestId, reply) ∈ x.answers ∧
      about a.requestId x.events = streamed a.requestId (.ok reply)
  blank : ∀ m ∈ x.page.messages, m.id = a.assistantId → m.content = "" ∧ m.pendingAction = none
  absent : ∀ m ∈ x.page.messages, ∀ reply, (a.requestId, reply) ∈ x.answers →
    m.id ≠ reply.message.id

/-- What has come of an answer and what is to come make up the answer. -/
structure Named (x : Exchange Token) (a : ActiveStreamState Token) (reply : ChatReply Token)
    (rest : List String) : Prop where
  answered : (a.requestId, reply) ∈ x.answers
  id : a.assistantId = reply.message.id
  conversationId : a.conversationId = some reply.conversationId
  pendingAction : a.pendingAction = reply.pendingAction
  events : about a.requestId x.events = [] ∨
    about a.requestId x.events = remaining a.requestId rest
  part : ∀ m ∈ x.page.messages, m.id = a.assistantId →
    m.content.toList ++ (rest.map String.toList).flatten = reply.message.content.toList ∧
      m.provider = reply.message.provider ∧ m.model = reply.message.model ∧ m.pendingAction = none

/-- The page shows what is stored, and each promise is settled once. -/
structure Faithful (x : Exchange Token) : Prop where
  legit : ∀ m ∈ x.page.messages, x.Legit m
  once : (x.page.settled.map Prod.fst).Nodup
  settledDrawn : ∀ s ∈ x.page.settled, s.1 ∈ x.drawn
  settledAnswered : ∀ r c, (r, .ok c) ∈ x.page.settled →
    ∃ reply, (r, reply) ∈ x.answers ∧ c = some reply.conversationId
  current : ∀ a, x.page.active = some a →
    a.requestId ∈ x.drawn ∧ a.requestId ∉ x.page.settled.map Prod.fst
  stream : ∀ a, x.page.active = some a → x.Unnamed a ∨ ∃ reply rest, x.Named a reply rest

variable {x : Exchange Token} {a : ActiveStreamState Token} {m : ChatUiMessage Token}

private theorem Faithful.quiet {socket : AiSocket} {sent : List AiChatPayload}
    {waiting : List (String × ChatRequestDto)} {events : List (StreamEvent Token)} (h : x.Faithful)
    (hevents : ∀ a, x.page.active = some a →
      about a.requestId events = about a.requestId x.events ∨ about a.requestId events = [] ∨
      ((∀ reply, (a.requestId, reply) ∉ x.answers) ∧
        ∃ message, about a.requestId events = [.error a.requestId message])) :
    ({ x with socket, sent, waiting, events } : Exchange Token).Faithful := by
  refine ⟨fun m hm => ?_, h.once, h.settledDrawn, h.settledAnswered, h.current, ?_⟩
  · have hlegit := h.legit m hm
    exact ⟨hlegit.drawn, hlegit.shown, hlegit.whole⟩
  · intro a ha
    rcases h.stream a ha with hu | ⟨reply, rest, hn⟩
    · left
      refine ⟨hu.id, hu.pendingAction, ?_, hu.blank, hu.absent⟩
      rcases hevents a ha with heq | hnil | ⟨-, herror⟩
      · dsimp only
        rw [heq]
        exact hu.events
      · exact .inl hnil
      · exact .inr (.inl herror)
    · right
      refine ⟨reply, rest, hn.answered, hn.id, hn.conversationId, hn.pendingAction, ?_, hn.part⟩
      rcases hevents a ha with heq | hnil | ⟨hnone, -⟩
      · dsimp only
        rw [heq]
        exact hn.events
      · exact .inl hnil
      · exact (hnone reply hn.answered).elim

private theorem Traffic.idle {r : String} (ht : x.Traffic) (hr : r ∈ x.asked) :
    (∀ reply, (r, reply) ∉ x.answers) ∧ about r x.events = [] := by
  constructor
  · intro reply hreply
    exact (ht.answered _ hreply).2 hr
  · apply about_of_none
    rintro e he rfl
    exact (ht.events e he).2 hr

private theorem Faithful.failed {r message : String} {socket : AiSocket}
    {sent : List AiChatPayload} {waiting : List (String × ChatRequestDto)} (ht : x.Traffic)
    (h : x.Faithful) (hr : r ∈ x.asked) :
    ({ x with socket, sent, waiting, events := x.events ++ [.error r message] } :
      Exchange Token).Faithful := by
  apply h.quiet
  intro a ha
  by_cases hra : r = a.requestId
  · subst hra
    obtain ⟨hnone, hidle⟩ := ht.idle hr
    refine .inr (.inr ⟨hnone, message, ?_⟩)
    rw [about_append, hidle, List.nil_append]
    exact about_cons_self _ rfl
  · left
    rw [about_append, about_cons_of_ne (e := .error r message) _ hra]
    simp

private theorem Faithful.answered {r : String} {result : ChatReply Token}
    {waiting : List (String × ChatRequestDto)} (ht : x.Traffic) (h : x.Faithful) (hr : r ∈ x.asked)
    (hlocal : ¬ LocalId result.message.id)
    (hfresh : result.message.id ∉ x.stored.rows.map Message.key) :
    ({ x with
      waiting
      events := x.events ++ streamed r (.ok result)
      stored := x.stored.insert result.message hfresh
      answers := x.answers ++ [(r, result)] } : Exchange Token).Faithful := by
  obtain ⟨hnone, hidle⟩ := ht.idle hr
  -- no message of the page has the new id
  have hnew : ∀ m ∈ x.page.messages, m.id ≠ result.message.id := by
    intro m hm heq
    obtain ⟨row, hrow, hid, -⟩ := (h.legit m hm).shown (heq ▸ hlocal)
    exact hfresh (heq ▸ hid ▸ List.mem_map_of_mem hrow)
  have hanswers : ∀ r' reply, (r', reply) ∈ x.answers ++ [(r, result)] →
      (r', reply) ∈ x.answers ∨ (r' = r ∧ reply = result) := by
    intro r' reply hreply
    simpa using hreply
  refine ⟨?_, h.once, h.settledDrawn, ?_, h.current, ?_⟩
  · intro m hm
    have hlegit := h.legit m hm
    refine ⟨hlegit.drawn, ?_, ?_⟩
    · intro hid
      obtain ⟨row, hrow, hshown⟩ := hlegit.shown hid
      exact ⟨row, List.mem_append_left _ hrow, hshown⟩
    · intro r' c reply hsettled hreply hid
      rcases hanswers r' reply hreply with hreply | ⟨-, rfl⟩
      · exact hlegit.whole r' c reply hsettled hreply hid
      · exact (hnew m hm hid).elim
  · intro r' c hsettled
    obtain ⟨reply, hreply, hc⟩ := h.settledAnswered r' c hsettled
    exact ⟨reply, List.mem_append_left _ hreply, hc⟩
  · intro a ha
    have habout : a.requestId ≠ r →
        about a.requestId (x.events ++ streamed r (.ok result)) = about a.requestId x.events := by
      intro hne
      have hnothing : about a.requestId (streamed r (.ok result)) = [] := by
        apply about_of_none
        intro e he heq
        exact hne (heq ▸ requestId_streamed _ e he)
      rw [about_append, hnothing, List.append_nil]
    rcases h.stream a ha with hu | ⟨reply, rest, hn⟩
    · left
      refine ⟨hu.id, hu.pendingAction, ?_, hu.blank, ?_⟩
      · by_cases hra : a.requestId = r
        · refine .inr (.inr ⟨result, by simp [hra], ?_⟩)
          rw [about_append, hra, hidle, List.nil_append, about_of_all (requestId_streamed _)]
        · dsimp only
          rw [habout hra]
          rcases hu.events with hnil | herror | ⟨reply, hreply, hstreamed⟩
          · exact .inl hnil
          · exact .inr (.inl herror)
          · exact .inr (.inr ⟨reply, List.mem_append_left _ hreply, hstreamed⟩)
      · intro m hm reply hreply
        rcases hanswers _ reply hreply with hreply | ⟨-, rfl⟩
        · exact hu.absent m hm reply hreply
        · exact hnew m hm
    · right
      refine ⟨reply, rest, List.mem_append_left _ hn.answered, hn.id, hn.conversationId,
        hn.pendingAction, ?_, hn.part⟩
      dsimp only
      rw [habout]
      · exact hn.events
      · rintro rfl
        exact hnone reply hn.answered

private theorem Faithful.stored {row : Message} (h : x.Faithful)
    (hfresh : row.id ∉ x.stored.rows.map Message.key) :
    ({ x with stored := x.stored.insert row hfresh } : Exchange Token).Faithful := by
  refine ⟨?_, h.once, h.settledDrawn, h.settledAnswered, h.current, ?_⟩
  · intro m hm
    have hlegit := h.legit m hm
    refine ⟨hlegit.drawn, ?_, hlegit.whole⟩
    intro hid
    obtain ⟨row, hrow, hshown⟩ := hlegit.shown hid
    exact ⟨row, List.mem_append_left _ hrow, hshown⟩
  · intro a ha
    rcases h.stream a ha with hu | ⟨reply, rest, hn⟩
    · exact .inl ⟨hu.id, hu.pendingAction, hu.events, hu.blank, hu.absent⟩
    · exact .inr ⟨reply, rest, hn.answered, hn.id, hn.conversationId, hn.pendingAction, hn.events,
        hn.part⟩

private theorem Faithful.messages {messages : List (ChatUiMessage Token)} (h : x.Faithful)
    (hlegit : ∀ m ∈ messages, x.Legit m)
    (hunnamed : ∀ a, x.page.active = some a → x.Unnamed a → ∀ m ∈ messages,
      (m.id = a.assistantId → m.content = "" ∧ m.pendingAction = none) ∧
        ∀ reply, (a.requestId, reply) ∈ x.answers → m.id ≠ reply.message.id)
    (hnamed : ∀ a reply rest, x.page.active = some a → x.Named a reply rest → ∀ m ∈ messages,
      m.id = a.assistantId →
        m.content.toList ++ (rest.map String.toList).flatten = reply.message.content.toList ∧
          m.provider = reply.message.provider ∧ m.model = reply.message.model ∧
            m.pendingAction = none) :
    ({ x with page := { x.page with messages } } : Exchange Token).Faithful := by
  refine ⟨fun m hm => ?_, h.once, h.settledDrawn, h.settledAnswered, h.current, ?_⟩
  · have hm := hlegit m hm
    exact ⟨hm.drawn, hm.shown, hm.whole⟩
  · intro a ha
    rcases h.stream a ha with hu | ⟨reply, rest, hn⟩
    · have hall := hunnamed a ha hu
      exact .inl ⟨hu.id, hu.pendingAction, hu.events, fun m hm => (hall m hm).1,
        fun m hm => (hall m hm).2⟩
    · exact .inr ⟨reply, rest, hn.answered, hn.id, hn.conversationId, hn.pendingAction, hn.events,
        hnamed a reply rest ha hn⟩

private theorem Traffic.ne_assistant {r r' : String} {reply : ChatReply Token} (ht : x.Traffic)
    (hreply : (r, reply) ∈ x.answers) : reply.message.id ≠ localAssistantId r' := by
  intro heq
  exact ht.storedIds _ (ht.stored _ hreply) (heq ▸ localId_assistant r')

private theorem Named.ne_settled {r : String} {c : Option String} {reply reply' : ChatReply Token}
    {rest : List String} (ht : x.Traffic) (h : x.Faithful) (ha : x.page.active = some a)
    (hn : x.Named a reply rest) (hsettled : (r, .ok c) ∈ x.page.settled)
    (hreply : (r, reply') ∈ x.answers) : reply'.message.id ≠ reply.message.id := by
  intro heq
  have hsame := ht.ids _ hreply _ hn.answered heq
  obtain ⟨rfl, -⟩ := Prod.mk.inj hsame
  exact (h.current a ha).2 (List.mem_map_of_mem hsettled)

private theorem Faithful.rejected {messages : List (ChatUiMessage Token)} {reason : String}
    (h : x.Faithful) (events : List (StreamEvent Token)) (ha : x.page.active = some a)
    (hlegit : ∀ m ∈ messages, x.Legit m) :
    ({ x with
      events
      page := { x.page with
        messages
        active := none
        settled := x.page.settled ++ [(a.requestId, .error reason)] } } :
      Exchange Token).Faithful := by
  have hok : ∀ r c, (r, .ok c) ∈ x.page.settled ++ [(a.requestId, Except.error reason)] →
      (r, .ok c) ∈ x.page.settled := by
    intro r c hm
    simpa using hm
  refine ⟨?_, ?_, ?_, ?_, by simp, by simp⟩
  · intro m hm
    have hm := hlegit m hm
    exact ⟨hm.drawn, hm.shown, fun r c reply hsettled => hm.whole r c reply (hok r c hsettled)⟩
  · simp only [List.map_append, List.map_cons, List.map_nil]
    exact List.nodup_append.mpr ⟨h.once, by simp, by
      rintro r hr r' hr' rfl
      obtain rfl := List.mem_singleton.mp hr'
      exact (h.current a ha).2 hr⟩
  · intro s hs
    rcases List.mem_append.mp hs with hs | hs
    · exact h.settledDrawn s hs
    · obtain rfl := List.mem_singleton.mp hs
      exact (h.current a ha).1
  · intro r c hsettled
    exact h.settledAnswered r c (hok r c hsettled)

private theorem Faithful.legit_patch {text : String} (ht : x.Traffic) (h : x.Faithful)
    (ha : x.page.active = some a) (htext : x.Unnamed a ∨ text = tookTooLong) :
    ∀ m ∈ (x.page.patch a.assistantId fun msg => { msg with content := text }).messages,
      x.Legit m := by
  intro m hm
  rcases AssistantChat.mem_patch hm with ⟨old, hold, hid, rfl⟩ | ⟨hm, -⟩
  · have hlegit := h.legit old hold
    refine ⟨hlegit.drawn, ?_, ?_⟩
    · intro hlocal
      rcases htext with hu | rfl
      · have hassistant : old.id = localAssistantId a.requestId := hid.trans hu.id
        exact (hlocal (hassistant ▸ localId_assistant _)).elim
      · obtain ⟨row, hrow, hrowId, -⟩ := hlegit.shown hlocal
        exact ⟨row, hrow, hrowId, .inr rfl⟩
    · intro r c reply hsettled hreply hmid
      have hidReply : a.assistantId = reply.message.id := hid.symm.trans hmid
      rcases h.stream a ha with hu | ⟨reply', rest, hn⟩
      · exact (ht.ne_assistant hreply (hidReply.symm.trans hu.id)).elim
      · exact (hn.ne_settled ht h ha hsettled hreply (hidReply.symm.trans hn.id)).elim
  · exact h.legit m hm

private theorem Faithful.timedOut {r : String} (ht : x.Traffic) (h : x.Faithful) :
    ({ x with page := x.page.onTimeout r } : Exchange Token).Faithful := by
  by_cases hactive : ∃ a, x.page.active = some a ∧ r = a.requestId
  · obtain ⟨a, ha, rfl⟩ := hactive
    rw [AssistantChat.onTimeout, AssistantChat.during_active ha]
    exact h.rejected x.events ha (h.legit_patch ht ha (.inr rfl))
  · rw [AssistantChat.onTimeout, AssistantChat.during_eq_self]
    · exact h
    · intro a ha hr
      exact hactive ⟨a, ha, hr⟩

private theorem Faithful.unmounted (h : x.Faithful) :
    ({ x with page := x.page.unmount } : Exchange Token).Faithful := by
  unfold AssistantChat.unmount
  cases hactive : x.page.active with
  | none => exact h
  | some a => exact h.rejected x.events hactive h.legit

private theorem Faithful.asking {r conversationId : String} {sent : List AiChatPayload}
    (ht : x.Traffic) (h : x.Faithful) (hfresh : r ∉ x.drawn) :
    ({ x with
      page := x.page.sendMessageViaWebSocket r conversationId
      sent
      drawn := r :: x.drawn } : Exchange Token).Faithful := by
  have hnone : ∀ reply, (r, reply) ∉ x.answers := fun reply hreply =>
    hfresh (ht.answered _ hreply).1
  refine ⟨?_, h.once, ?_, h.settledAnswered, ?_, ?_⟩
  · intro m hm
    rcases List.mem_append.mp hm with hm | hm
    · have hlegit := h.legit m hm
      exact ⟨fun r' hr' => List.mem_cons_of_mem _ (hlegit.drawn r' hr'), hlegit.shown, hlegit.whole⟩
    · obtain rfl := List.mem_singleton.mp hm
      refine ⟨?_, ?_, ?_⟩
      · intro r' hr'
        obtain rfl := localAssistantId_inj hr'
        exact List.mem_cons_self
      · intro hlocal
        exact (hlocal (localId_assistant r)).elim
      · intro r' c reply _ hreply hid
        exact (ht.ne_assistant hreply hid.symm).elim
  · intro s hs
    exact List.mem_cons_of_mem _ (h.settledDrawn s hs)
  · intro a ha
    obtain rfl := Option.some.inj ha
    refine ⟨List.mem_cons_self, fun hin => ?_⟩
    obtain ⟨s, hs, rfl⟩ := List.mem_map.mp hin
    exact hfresh (h.settledDrawn s hs)
  · intro a ha
    obtain rfl := Option.some.inj ha
    left
    refine ⟨rfl, rfl, .inl ?_, ?_, ?_⟩
    · apply about_of_none
      rintro e he rfl
      exact hfresh (ht.events e he).1
    · intro m hm hid
      rcases List.mem_append.mp hm with hm | hm
      · exact (hfresh ((h.legit m hm).drawn r hid)).elim
      · obtain rfl := List.mem_singleton.mp hm
        exact ⟨rfl, rfl⟩
    · intro m _ reply hreply
      exact (hnone reply hreply).elim

private theorem Faithful.opened {reply : ChatReply Token} {events : List (StreamEvent Token)}
    (ht : x.Traffic) (h : x.Faithful) (ha : x.page.active = some a) (hu : x.Unnamed a)
    (hreply : (a.requestId, reply) ∈ x.answers)
    (hevents : about a.requestId events = remaining a.requestId (tokens reply.message.content)) :
    ({ x with
      page := x.page.receive (.opened (opening a.requestId reply))
      events } : Exchange Token).Faithful := by
  obtain ⟨hne, hconversation⟩ := ht.names _ hreply
  have hlocal : reply.message.id ≠ a.assistantId := by
    rw [hu.id]
    exact ht.ne_assistant hreply
  let named := x.page.patch a.assistantId fun msg => { msg with
    id := reply.message.id, provider := reply.message.provider, model := reply.message.model }
  have hpage : x.page.receive (.opened (opening a.requestId reply)) = { named with
      active := some { a with
        assistantId := reply.message.id
        conversationId := some reply.conversationId
        pendingAction := reply.pendingAction }
      activeConversationId := some reply.conversationId } := by
    have hor : reply.pendingAction.or a.pendingAction = reply.pendingAction := by
      rw [hu.pendingAction, Option.or_none]
    simp only [AssistantChat.receive, AssistantChat.onMeta, opening, AssistantChat.during_active ha,
      AssistantChat.named, hne, hlocal, hconversation, ne_eq, not_false_eq_true, and_self, if_true,
      if_false, hor, named]
  rw [hpage]
  -- a message with the stored id is the one that was renamed
  have hcases : ∀ m ∈ named.messages, (∃ old ∈ x.page.messages, old.id = a.assistantId ∧
      m = { old with
        id := reply.message.id, provider := reply.message.provider, model := reply.message.model }) ∨
      (m ∈ x.page.messages ∧ m.id ≠ reply.message.id) := by
    intro m hm
    rcases AssistantChat.mem_patch hm with hm | ⟨hm, -⟩
    · exact .inl hm
    · exact .inr ⟨hm, hu.absent m hm reply hreply⟩
  refine ⟨?_, h.once, h.settledDrawn, h.settledAnswered, ?_, ?_⟩
  · intro m hm
    rcases hcases m hm with ⟨old, hold, hid, rfl⟩ | ⟨hm, -⟩
    · refine ⟨?_, ?_, ?_⟩
      · intro r hr
        exact (ht.ne_assistant hreply hr).elim
      · intro _
        refine ⟨reply.message, ht.stored _ hreply, rfl, .inl ?_⟩
        dsimp only
        rw [(hu.blank old hold hid).1]
        exact List.nil_prefix
      · intro r c reply' hsettled hreply' heq
        have hsame := ht.ids _ hreply _ hreply' heq
        obtain ⟨rfl, -⟩ := Prod.mk.inj hsame
        exact ((h.current a ha).2 (List.mem_map_of_mem hsettled)).elim
    · have hlegit := h.legit m hm
      exact ⟨hlegit.drawn, hlegit.shown, hlegit.whole⟩
  · intro a' ha'
    obtain rfl := Option.some.inj ha'
    exact h.current a ha
  · intro a' ha'
    obtain rfl := Option.some.inj ha'
    right
    refine ⟨reply, tokens reply.message.content, hreply, rfl, rfl, rfl, .inr hevents, ?_⟩
    intro m hm hid
    rcases hcases m hm with ⟨old, hold, holdId, rfl⟩ | ⟨-, hne⟩
    · obtain ⟨hblank, hpending⟩ := hu.blank old hold holdId
      refine ⟨?_, rfl, rfl, hpending⟩
      dsimp only
      rw [hblank, flatten_tokens]
      rfl
    · exact (hne hid).elim

private theorem Faithful.chunked {reply : ChatReply Token} {token : String} {rest : List String}
    {events : List (StreamEvent Token)} (ht : x.Traffic) (h : x.Faithful)
    (ha : x.page.active = some a) (hn : x.Named a reply (token :: rest))
    (hevents : about a.requestId events = remaining a.requestId rest) :
    ({ x with page := x.page.receive (.chunk a.requestId token), events } :
      Exchange Token).Faithful := by
  have hpage : x.page.receive (.chunk a.requestId token) = x.page.patch a.assistantId fun msg =>
      { msg with content := msg.content ++ token } := AssistantChat.during_active ha
  rw [hpage]
  have hpart : ∀ old ∈ x.page.messages, old.id = a.assistantId →
      (old.content ++ token).toList ++ (rest.map String.toList).flatten =
        reply.message.content.toList := by
    intro old hold hid
    have hold := (hn.part old hold hid).1
    simpa using hold
  refine ⟨?_, h.once, h.settledDrawn, h.settledAnswered, h.current, ?_⟩
  · intro m hm
    rcases AssistantChat.mem_patch hm with ⟨old, hold, hid, rfl⟩ | ⟨hm, -⟩
    · have hlegit := h.legit old hold
      refine ⟨hlegit.drawn, ?_, ?_⟩
      · intro _
        exact ⟨reply.message, ht.stored _ hn.answered, (hid.trans hn.id).symm,
          .inl ⟨_, hpart old hold hid⟩⟩
      · intro r c reply' hsettled hreply' heq
        exact (hn.ne_settled ht h ha hsettled hreply' (heq.symm.trans (hid.trans hn.id))).elim
    · have hlegit := h.legit m hm
      exact ⟨hlegit.drawn, hlegit.shown, hlegit.whole⟩
  · intro a' ha'
    obtain rfl := Option.some.inj (ha.symm.trans ha')
    right
    refine ⟨reply, rest, hn.answered, hn.id, hn.conversationId, hn.pendingAction, .inr hevents, ?_⟩
    intro m hm hid
    rcases AssistantChat.mem_patch hm with ⟨old, hold, holdId, rfl⟩ | ⟨-, hne⟩
    · exact ⟨hpart old hold holdId, (hn.part old hold holdId).2⟩
    · exact (hne hid).elim

private theorem Faithful.resolved {reply : ChatReply Token} {events : List (StreamEvent Token)}
    (ht : x.Traffic) (h : x.Faithful) (ha : x.page.active = some a) (hn : x.Named a reply []) :
    ({ x with page := x.page.receive (.done a.requestId), events } : Exchange Token).Faithful := by
  let filled : AssistantChat Token := x.page.patch a.assistantId fun msg =>
    { msg with pendingAction := a.pendingAction.or msg.pendingAction }
  have hpage : x.page.receive (.done a.requestId) = filled.settle a (.ok a.conversationId) := by
    rw [AssistantChat.receive, AssistantChat.onDone, AssistantChat.during_active ha]
    cases hpending : a.pendingAction with
    | some p => simp [filled, hpending]
    | none => simp [filled, hpending, AssistantChat.patch]
  rw [hpage]
  have hwhole : ∀ m ∈ filled.messages, m.id = a.assistantId → m.Whole reply := by
    intro m hm hid
    rcases AssistantChat.mem_patch hm with ⟨old, hold, holdId, rfl⟩ | ⟨-, hne⟩
    · obtain ⟨hcontent, hprovider, hmodel, hpending⟩ := hn.part old hold holdId
      refine ⟨String.toList_inj.mp (by simpa using hcontent), hprovider, hmodel, .inr ?_⟩
      dsimp only
      rw [hn.pendingAction, hpending, Option.or_none]
    · exact (hne hid).elim
  have hok : ∀ r c, (r, .ok c) ∈ x.page.settled ++ [(a.requestId, Except.ok a.conversationId)] →
      (r, .ok c) ∈ x.page.settled ∨ (r = a.requestId ∧ c = a.conversationId) := by
    intro r c hm
    simpa using hm
  refine ⟨?_, ?_, ?_, ?_, by simp [AssistantChat.settle], by simp [AssistantChat.settle]⟩
  · intro m hm
    have hold : ∃ old ∈ x.page.messages, old.id = m.id ∧ old.content = m.content := by
      rcases AssistantChat.mem_patch hm with ⟨old, hold, -, rfl⟩ | ⟨hm, -⟩
      · exact ⟨old, hold, rfl, rfl⟩
      · exact ⟨m, hm, rfl, rfl⟩
    obtain ⟨old, hold, hid, hcontent⟩ := hold
    have hlegit := h.legit old hold
    refine ⟨?_, ?_, ?_⟩
    · intro r hr
      exact hlegit.drawn r (hid.trans hr)
    · intro hlocal
      obtain ⟨row, hrow, hrowId, hfits⟩ := hlegit.shown (hid ▸ hlocal)
      refine ⟨row, hrow, hrowId.trans hid, ?_⟩
      rw [ChatUiMessage.Fits, ← hcontent]
      exact hfits
    · intro r c reply' hsettled hreply' hmid
      rcases hok r c hsettled with hsettled | ⟨rfl, rfl⟩
      · rcases AssistantChat.mem_patch hm with ⟨old', hold', hid', rfl⟩ | ⟨hm, -⟩
        · exact (hn.ne_settled ht h ha hsettled hreply' (hmid.symm.trans (hid'.trans hn.id))).elim
        · exact (h.legit m hm).whole r c reply' hsettled hreply' hmid
      · have hsame := ht.keys _ hreply' _ hn.answered rfl
        obtain ⟨-, rfl⟩ := Prod.mk.inj hsame
        exact hwhole m hm (hmid.trans hn.id.symm)
  · simp only [AssistantChat.settle, List.map_append, List.map_cons, List.map_nil]
    exact List.nodup_append.mpr ⟨h.once, by simp, by
      rintro r hr r' hr' rfl
      obtain rfl := List.mem_singleton.mp hr'
      exact (h.current a ha).2 hr⟩
  · intro s hs
    rcases List.mem_append.mp hs with hs | hs
    · exact h.settledDrawn s hs
    · obtain rfl := List.mem_singleton.mp hs
      exact (h.current a ha).1
  · intro r c hsettled
    rcases hok r c hsettled with hsettled | ⟨rfl, rfl⟩
    · exact h.settledAnswered r c hsettled
    · exact ⟨reply, hn.answered, hn.conversationId⟩

private theorem Faithful.delivered {e : StreamEvent Token} {events : List (StreamEvent Token)}
    (ht : x.Traffic) (h : x.Faithful) (hevents : x.events = e :: events) :
    ({ x with page := x.page.receive e, events } : Exchange Token).Faithful := by
  by_cases hactive : ∃ a, x.page.active = some a ∧ e.requestId = a.requestId
  · obtain ⟨a, ha, hid⟩ := hactive
    have habout : about a.requestId x.events = e :: about a.requestId events := by
      rw [hevents, about_cons_self _ hid]
    rcases h.stream a ha with hu | ⟨reply, rest, hn⟩
    · rcases hu.events with hnil | ⟨message, herror⟩ | ⟨reply, hreply, hstreamed⟩
      · rw [hnil] at habout
        cases habout
      · rw [herror] at habout
        obtain ⟨rfl, -⟩ := List.cons.inj habout
        rw [AssistantChat.receive, AssistantChat.onError, AssistantChat.during_active ha]
        exact h.rejected events ha (h.legit_patch ht ha (.inl hu))
      · rw [hstreamed] at habout
        obtain ⟨rfl, hrest⟩ := List.cons.inj habout
        exact h.opened ht ha hu hreply hrest.symm
    · rcases hn.events with hnil | hremaining
      · rw [hnil] at habout
        cases habout
      · rw [hremaining] at habout
        cases rest with
        | nil =>
          obtain ⟨rfl, -⟩ := List.cons.inj habout
          exact h.resolved ht ha hn
        | cons token rest =>
          obtain ⟨rfl, hrest⟩ := List.cons.inj habout
          exact h.chunked ht ha hn hrest.symm
  · have hother : ∀ a, x.page.active = some a → e.requestId ≠ a.requestId :=
      fun a ha hid => hactive ⟨a, ha, hid⟩
    rw [AssistantChat.receive_eq_self hother]
    have hquiet : ({ x with events } : Exchange Token).Faithful := by
      apply h.quiet
      intro a ha
      left
      rw [hevents, about_cons_of_ne _ (hother a ha)]
    exact hquiet

private theorem Traffic.legit_shown {row : Message} {pendingAction : Option (PendingAction Token)}
    (ht : x.Traffic) (hrow : row ∈ x.stored.rows)
    (hpending : pendingAction = none ∨ ∀ answer ∈ x.answers, answer.2.message.id ≠ row.id) :
    x.Legit (row.shown pendingAction) := by
  refine ⟨?_, ?_, ?_⟩
  · intro r hr
    have hid : row.id = localAssistantId r := hr
    exact (ht.storedIds row hrow (hid ▸ localId_assistant r)).elim
  · intro _
    exact ⟨row, hrow, rfl, .inl List.prefix_rfl⟩
  · intro r c reply _ hreply hid
    rcases hpending with rfl | hother
    · have hsame : row = reply.message :=
        x.stored.eq_of_key_eq hrow (ht.stored _ hreply) hid
      subst hsame
      exact ⟨rfl, rfl, rfl, .inl rfl⟩
    · exact (hother _ hreply hid.symm).elim

private theorem Faithful.historied {rows : List Message} (ht : x.Traffic) (h : x.Faithful)
    (hrows : rows ⊆ x.stored.rows) (hquiet : x.Undisturbed (.history rows)) :
    ({ x with page := x.page.loaded rows } : Exchange Token).Faithful := by
  apply h.messages
  · intro m hm
    obtain ⟨row, hrow, rfl⟩ := List.mem_map.mp hm
    exact ht.legit_shown (hrows hrow) (.inl rfl)
  · intro a ha hu m hm
    obtain ⟨row, hrow, rfl⟩ := List.mem_map.mp hm
    refine ⟨?_, ?_⟩
    · intro hid
      have hlocal : row.id = localAssistantId a.requestId := hid.trans hu.id
      exact (ht.storedIds row (hrows hrow) (hlocal ▸ localId_assistant _)).elim
    · intro reply hreply
      exact hquiet a ha _ hreply rfl row hrow
  · intro a reply rest ha hn m hm hid
    obtain ⟨row, hrow, rfl⟩ := List.mem_map.mp hm
    exact (hquiet a ha _ hn.answered rfl row hrow (hid.trans hn.id)).elim

private theorem Faithful.noted {msg : ChatUiMessage Token} (ht : x.Traffic) (h : x.Faithful)
    (hid : NoteId msg.id) : ({ x with page := x.page.append msg } : Exchange Token).Faithful := by
  have hstored : ∀ r reply, (r, reply) ∈ x.answers → msg.id ≠ reply.message.id := by
    intro r reply hreply heq
    exact ht.storedIds _ (ht.stored _ hreply) (heq ▸ hid.1)
  apply h.messages
  · intro m hm
    rcases List.mem_append.mp hm with hm | hm
    · exact h.legit m hm
    · obtain rfl := List.mem_singleton.mp hm
      refine ⟨?_, ?_, ?_⟩
      · intro r hr
        exact (hid.ne_assistant hr).elim
      · intro hlocal
        exact (hlocal hid.1).elim
      · intro r c reply _ hreply heq
        exact (hstored r reply hreply heq).elim
  · intro a ha hu m hm
    rcases List.mem_append.mp hm with hm | hm
    · exact ⟨hu.blank m hm, hu.absent m hm⟩
    · obtain rfl := List.mem_singleton.mp hm
      exact ⟨fun heq => (hid.ne_assistant (heq.trans hu.id)).elim, hstored _⟩
  · intro a reply rest ha hn m hm heq
    rcases List.mem_append.mp hm with hm | hm
    · exact hn.part m hm heq
    · obtain rfl := List.mem_singleton.mp hm
      exact (hstored _ reply hn.answered (heq.trans hn.id)).elim

private theorem Faithful.replied {row : Message} {pendingAction : Option (PendingAction Token)}
    (ht : x.Traffic) (h : x.Faithful) (hrow : row ∈ x.stored.rows)
    (hother : ∀ answer ∈ x.answers, answer.2.message.id ≠ row.id) :
    ({ x with page := x.page.append (row.shown pendingAction) } : Exchange Token).Faithful := by
  apply h.messages
  · intro m hm
    rcases List.mem_append.mp hm with hm | hm
    · exact h.legit m hm
    · obtain rfl := List.mem_singleton.mp hm
      exact ht.legit_shown hrow (.inr hother)
  · intro a ha hu m hm
    rcases List.mem_append.mp hm with hm | hm
    · exact ⟨hu.blank m hm, hu.absent m hm⟩
    · obtain rfl := List.mem_singleton.mp hm
      refine ⟨?_, ?_⟩
      · intro hid
        have hlocal : row.id = localAssistantId a.requestId := hid.trans hu.id
        exact (ht.storedIds row hrow (hlocal ▸ localId_assistant _)).elim
      · intro reply hreply heq
        exact hother _ hreply heq.symm
  · intro a reply rest ha hn m hm hid
    rcases List.mem_append.mp hm with hm | hm
    · exact hn.part m hm hid
    · obtain rfl := List.mem_singleton.mp hm
      exact (hother _ hn.answered (hid.trans hn.id).symm).elim

private theorem Faithful.confirming {messageId : String} (h : x.Faithful) :
    ({ x with page := x.page.confirmed messageId } : Exchange Token).Faithful := by
  have hold : ∀ m ∈ (x.page.confirmed messageId).messages, ∃ old ∈ x.page.messages,
      m = old ∨ m = { old with pendingAction := none } := by
    intro m hm
    rcases AssistantChat.mem_patch hm with ⟨old, hold, -, rfl⟩ | ⟨hm, -⟩
    · exact ⟨old, hold, .inr rfl⟩
    · exact ⟨m, hm, .inl rfl⟩
  apply h.messages
  · intro m hm
    obtain ⟨old, hold, rfl | rfl⟩ := hold m hm
    · exact h.legit m hold
    · have hlegit := h.legit old hold
      refine ⟨hlegit.drawn, hlegit.shown, ?_⟩
      intro r c reply hsettled hreply hid
      have hw := hlegit.whole r c reply hsettled hreply hid
      exact ⟨hw.content, hw.provider, hw.model, .inl rfl⟩
  · intro a ha hu m hm
    obtain ⟨old, hold, rfl | rfl⟩ := hold m hm
    · exact ⟨hu.blank m hold, hu.absent m hold⟩
    · exact ⟨fun hid => ⟨(hu.blank old hold hid).1, rfl⟩, hu.absent old hold⟩
  · intro a reply rest ha hn m hm hid
    obtain ⟨old, hold, rfl | rfl⟩ := hold m hm
    · exact hn.part m hold hid
    · obtain ⟨hcontent, hprovider, hmodel, -⟩ := hn.part old hold hid
      exact ⟨hcontent, hprovider, hmodel, rfl⟩

theorem faithful_step {y : Exchange Token} {l : ExchangeLabel} (ht : x.Traffic) (h : x.Faithful)
    (hquiet : x.Undisturbed l) (hs : Exchange.Step x l y) : y.Faithful := by
  cases hs with
  | ask conversationId payload hid hne hfresh => exact h.asking ht hfresh
  | @refuse p sent message socket now generated hsent hchat =>
    have hmem : p ∈ x.sent := by simp [hsent]
    apply h.failed ht
    rw [ht.identified p hmem generated]
    exact mem_asked.mpr (.inl ⟨p, hmem, rfl⟩)
  | accept now generated hsent hchat =>
    apply h.quiet
    intro a ha
    exact .inl rfl
  | @answer requestId dto before after result hwaiting hids hfresh =>
    exact h.answered ht (mem_asked.mpr (.inr ⟨(requestId, dto), by simp [hwaiting], rfl⟩)) hids.1
      hfresh
  | @fail requestId dto before after message hwaiting =>
    exact h.failed ht (mem_asked.mpr (.inr ⟨(requestId, dto), by simp [hwaiting], rfl⟩))
  | deliver hevents => exact h.delivered ht hevents
  | reconnect user =>
    apply h.quiet
    intro a ha
    exact .inr (.inl rfl)
  | timeout requestId => exact h.timedOut ht
  | unmount => exact h.unmounted
  | store row hid hfresh => exact h.stored hfresh
  | history rows hrows => exact h.historied ht hrows hquiet
  | note msg hid => exact h.noted ht hid
  | reply row pendingAction hrow hother => exact h.replied ht hrow hother
  | confirm messageId => exact h.confirming

end Exchange

end Pages

section Runs

namespace Exchange

variable {user : Option CurrentUser} {stored : Table Message.key} {x : Exchange Token}
  {trace : List (ExchangeLabel × Exchange Token)}

/-- Unless a history brings an answer while it is being streamed: every message of the page that is
not local shows a beginning of the stored message of its id or says that it took too long, each
promise is settled once, and once it is resolved the page shows nothing but the whole answer. -/
theorem streams_show_stored_answers (hstored : ∀ row ∈ stored.rows, ¬ LocalId row.id)
    (h : Run Exchange.Step (.start user stored) trace x)
    (hquiet : Along Undisturbed (.start user stored) trace) :
    (∀ m ∈ x.page.messages, ¬ LocalId m.id → ∃ row ∈ x.stored.rows, row.id = m.id ∧
      (m.content.toList <+: row.content.toList ∨ m.content = tookTooLong)) ∧
    (x.page.settled.map Prod.fst).Nodup ∧
    ∀ r conversationId, (r, .ok conversationId) ∈ x.page.settled →
      ∃ reply, (r, reply) ∈ x.answers ∧ reply.message ∈ x.stored.rows ∧
        conversationId = some reply.conversationId ∧
        ∀ m ∈ x.page.messages, m.id = reply.message.id → m.Whole reply := by
  have hstart : (start user stored : Exchange Token).Traffic ∧
      (start user stored : Exchange Token).Faithful := by
    constructor
    · constructor <;> simp [start, asked]
      exact hstored
    · constructor <;> simp [start]
  have hstep : ∀ (y : Exchange Token) (l : ExchangeLabel) (z : Exchange Token),
      y.Traffic ∧ y.Faithful → y.Undisturbed l → Exchange.Step y l z → z.Traffic ∧ z.Faithful :=
    fun _ _ _ hy hp hs => ⟨traffic_step hy.1 hs, faithful_step hy.1 hy.2 hp hs⟩
  obtain ⟨ht, hf⟩ := h.invariant_along hstep hstart hquiet
  refine ⟨fun m hm => (hf.legit m hm).shown, hf.once, ?_⟩
  intro r c hsettled
  obtain ⟨reply, hreply, hc⟩ := hf.settledAnswered r c hsettled
  exact ⟨reply, hreply, ht.stored _ hreply, hc,
    fun m hm => (hf.legit m hm).whole r c reply hsettled hreply⟩

private def hello : ChatReply ℕ where
  conversationId := "c"
  message := { id := "m", conversationId := "c", role := .assistant, content := "Hi you", createdAt := 0 }

private def guest : CurrentUser := ⟨"u", "u@example.com", "USER"⟩

private def question : AiChatPayload := ⟨some "r", some "hi", some "c", some true, none⟩

private def Calm (x : Exchange ℕ) : Prop :=
  ∃ trace, Run Exchange.Step (.start (some guest) .empty) trace x ∧
    Along Undisturbed (.start (some guest) .empty) trace

private theorem Calm.next {x y : Exchange ℕ} {l : ExchangeLabel} (h : Calm x)
    (hs : Exchange.Step x l y) (hl : x.Undisturbed l) : Calm y := by
  obtain ⟨trace, hrun, halong⟩ := h
  exact ⟨_, hrun.snoc hs, hrun.along_append.mpr ⟨halong, hl, trivial⟩⟩

/-- An answer of two words and a space comes in five events. -/
theorem streams_show_stored_answers_hello :
    ∃ (trace : List (ExchangeLabel × Exchange ℕ)) (x : Exchange ℕ),
      Run Exchange.Step (.start (some guest) .empty) trace x ∧
      x.page.messages.map (fun m => (m.id, m.content)) = [("m", "Hi you")] ∧
      (x.page.settled.map Prod.fst).Nodup ∧
      ∃ reply, ("r", reply) ∈ x.answers ∧ reply.message ∈ x.stored.rows ∧
        some "c" = some reply.conversationId ∧
        ∀ m ∈ x.page.messages, m.id = reply.message.id → m.Whole reply := by
  have hstart : Calm (.start (some guest) .empty) := ⟨[], .nil, trivial⟩
  have hask := hstart.next (.ask "c" question rfl (by decide) (by simp [start])) trivial
  have haccept := hask.next (.accept 0 "" rfl rfl) trivial
  have hanswer := haccept.next (.answer [] [] hello rfl (by decide) (by simp [start])) trivial
  have hopened := hanswer.next (.deliver rfl) trivial
  have hfirst := hopened.next (.deliver rfl) trivial
  have hspace := hfirst.next (.deliver rfl) trivial
  have hsecond := hspace.next (.deliver rfl) trivial
  obtain ⟨trace, hdone, hquiet⟩ := hsecond.next (.deliver rfl) trivial
  obtain ⟨-, honce, hwhole⟩ := streams_show_stored_answers (by simp) hdone hquiet
  exact ⟨_, _, hdone, rfl, honce, hwhole "r" (some "c") (.head _)⟩

end Exchange

end Runs

end CloudVM.Conversations
