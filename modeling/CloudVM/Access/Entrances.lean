import CloudVM.Access.Fingerprint
import CloudVM.Sessions.Attempts
import CloudVM.Sessions.Vnc

/-!
# The entrances of the VM and AI services

Two HTTP strategies and four gateways admit a client by its access token. Each has a check of its
own: that of the VNC gateway leaves the fingerprint out.
-/

namespace CloudVM.Access

open Terminal (Authentication Caller)

section Checks

variable (sha256 : String → String) (verify : String → Option Claims)

/-- `JwtStrategy.validate`, after the signature and the expiry were checked. -/
def validate (req : Request) (payload : Claims) : Except Failure CurrentUser :=
  if payload.unbound (buildRequestFingerprint sha256 req) then
    .error ⟨.unauthorized, "Token fingerprint mismatch"⟩
  else .ok payload.user

def Claims.caller (claims : Claims) : Caller where
  sub := claims.sub
  role := if claims.role = "ADMIN" then .admin else .user

/-- The check at the start of `connect-ssh`; `skipFp` is `TERMINAL_SKIP_FINGERPRINT_CHECK`. -/
def terminalAuthentication (skipFp : Bool) (client : Handshake) : Authentication :=
  match presentedToken client with
  | none => .unreadable
  | some none => .missing
  | some (some token) =>
      match verify token with
      | none => .invalid
      | some user =>
          if !skipFp && user.unbound (buildSocketFingerprint sha256 client) then .invalid
          else .user user.caller

/-- The user and the rooms that are joined; a client that is refused is disconnected. -/
def vmEventsConnection (skipFp : Bool) (client : Handshake) :
    Option (CurrentUser × List String) := do
  let some token ← presentedToken client | none
  let payload ← verify token
  if !skipFp && payload.unbound (buildSocketFingerprint sha256 client) then none
  else some (payload.user,
    ("user:" ++ payload.sub) :: if payload.role = "ADMIN" then ["admin"] else [])

/-- The user that is kept with the socket; a client that is refused is disconnected. -/
def aiChatConnection (client : Handshake) : Option CurrentUser := do
  let some token ← presentedToken client | none
  let payload ← verify token
  if payload.unbound (buildSocketFingerprint sha256 client) then none else some payload.user

inductive ChatReply where
  | error (message : String)
  | disconnected (message : String)
  | forwarded (user : CurrentUser) (message : String)
deriving DecidableEq, Repr

/-- `ai:chat`, up to the call of the service. -/
def handleAiChat (user : Option CurrentUser) (message : Option String) (allowEventRate : Bool) :
    ChatReply :=
  match user, truthy message with
  | none, _ => .error "Unauthorized socket session"
  | some _, none => .error "Message is required"
  | some user, some message =>
      if allowEventRate then .forwarded user message
      else .disconnected "Too many chat messages. Maximum 2 messages per second."

def vncAuthentication (client : Handshake) : Authentication :=
  match presentedToken client with
  | none => .unreadable
  | some none => .missing
  | some (some token) =>
      match verify token with
      | none => .invalid
      | some user => .user user.caller

end Checks

section Visits

inductive Entrance where
  | vmHttp
  | aiHttp
  | terminal
  | vmEvents
  | aiChat
  | vnc
deriving DecidableEq, Repr

/-- The parts of the services that are not under the client's control. -/
structure Site where
  sha256 : String → String
  verify : String → Option Claims
  connect : Terminal.ConnectSettings
  input : Terminal.Settings
  vnc : Vnc.VncSettings

/-- A client at an HTTP route or at a gateway. -/
structure Client where
  request : Request
  handshake : Handshake

variable (site : Site) (client : Client)

def fingerprint : Entrance → String
  | .vmHttp => buildRequestFingerprint site.sha256 client.request
  | .aiHttp => buildRequestFingerprint site.sha256 client.request
  | _ => buildSocketFingerprint site.sha256 client.handshake

/-- Events at the terminal gateway, where each request is checked with the handshake of the
socket; the token may have expired by then. -/
def TerminalVisit
    (events : List (SocketEvent Unit Terminal.TerminalRequest Terminal.Callback)) : Prop :=
  ∀ payload auth, .sends (.connectSsh payload auth) ∈ events →
    ∃ verify, (∀ token claims, verify token = some claims → site.verify token = some claims) ∧
      auth = terminalAuthentication site.sha256 verify false client.handshake

/-- Events at the VNC gateway for a socket that names `vmId`, whose row is `row`. -/
def VncVisit (vmId : Option String) (row : Option VmRow)
    (events : List (SocketEvent Vnc.VncHandshake (Option (List UInt8)) Vnc.Callback)) : Prop :=
  ∀ e ∈ events, (∀ q, e = .connects q → q = ⟨vncAuthentication site.verify client.handshake, vmId⟩) ∧
    ∀ i reply connects, e = .calls i (.replied reply connects) → reply = some row ∨ reply = none

/-- What a client gets: an answered request, an SSH session, a room, a chat or a VNC stream. -/
def Grants (claims : Claims) (vmId : Option String) (row : Option VmRow) : Entrance → Prop
  | .vmHttp => ∃ user, validate site.sha256 client.request claims = .ok user
  | .aiHttp => ∃ user, validate site.sha256 client.request claims = .ok user
  | .terminal => ∃ events y, TerminalVisit site client events ∧
      events.foldlM (Terminal.terminalGateway site.connect site.input).after
        (Terminal.terminalGateway site.connect site.input).start = some y ∧ y.data.session ≠ none
  | .vmEvents => ∃ user room rooms,
      vmEventsConnection site.sha256 site.verify false client.handshake =
        some (user, room :: rooms)
  | .aiChat => ∃ message rate user text,
      handleAiChat (aiChatConnection site.sha256 site.verify client.handshake) message rate =
        .forwarded user text
  | .vnc => ∃ events y, VncVisit site client vmId row events ∧
      events.foldlM (Vnc.vncGateway site.vnc).after (Vnc.vncGateway site.vnc).start = some y ∧
        y.data ≠ none

end Visits

section Refusals

variable {sha256 : String → String} {verify : String → Option Claims} {claims : Claims}

theorem validate_ok_iff {req : Request} :
    (∃ user, validate sha256 req claims = .ok user) ↔
      claims.fp = some (buildRequestFingerprint sha256 req) ∧
        buildRequestFingerprint sha256 req ≠ "" := by
  rw [← Claims.not_unbound_iff]
  unfold validate
  constructor
  · rintro ⟨user, h⟩
    split at h
    · cases h
    · rename_i hn
      simpa using hn
  · intro h
    exact ⟨claims.user, by simp [h]⟩

theorem terminalAuthentication_ne_user {client : Handshake} {token : String}
    (hp : presentedToken client = some (some token))
    (hv : ∀ claims, verify token = some claims →
      claims.fp ≠ some (buildSocketFingerprint sha256 client)) (caller : Caller) :
    terminalAuthentication sha256 verify false client ≠ .user caller := by
  unfold terminalAuthentication
  rw [hp]
  cases h : verify token with
  | none => simp only [h, ne_eq, reduceCtorEq, not_false_eq_true]
  | some claims =>
    have hu := Claims.unbound_of_ne (hv claims h)
    simp only [h, hu, Bool.not_false, Bool.and_self, if_true, ne_eq, reduceCtorEq,
      not_false_eq_true]

theorem vmEventsConnection_eq_none {client : Handshake} {token : String}
    (hp : presentedToken client = some (some token)) (hv : verify token = some claims)
    (hne : claims.fp ≠ some (buildSocketFingerprint sha256 client)) :
    vmEventsConnection sha256 verify false client = none := by
  simp [vmEventsConnection, hp, hv, Claims.unbound_of_ne hne]

theorem aiChatConnection_eq_none {client : Handshake} {token : String}
    (hp : presentedToken client = some (some token)) (hv : verify token = some claims)
    (hne : claims.fp ≠ some (buildSocketFingerprint sha256 client)) :
    aiChatConnection sha256 verify client = none := by
  simp [aiChatConnection, hp, hv, Claims.unbound_of_ne hne]

end Refusals

section TerminalVisits

open Terminal

variable {connect : ConnectSettings} {input : Settings}

/-- A socket whose requests prove nothing has no attempt. -/
def Unserved (x : Seat TerminalSeat Attempt) : Prop := x.data.session = none ∧ x.attempts = []

private theorem unserved_after {x y : Seat TerminalSeat Attempt}
    {e : SocketEvent Unit TerminalRequest Callback} (hx : Unserved x)
    (he : ∀ payload caller, e ≠ .sends (.connectSsh payload (.user caller)))
    (h : (terminalGateway connect input).after x e = some y) : Unserved y := by
  obtain ⟨hs, ha⟩ := hx
  rcases Gateway.after_cases h with ⟨q, rfl, -, rfl⟩ | ⟨rfl, -, rfl⟩ | ⟨r, rfl, -, rfl⟩ |
    ⟨i, c, a, a', f, rfl, hi, -, -⟩
  · exact ⟨rfl, by simp [Gateway.respond, terminalGateway, ha]⟩
  · exact ⟨rfl, ha⟩
  · cases r with
    | connectSsh payload auth =>
      have hr : (handleConnectSsh payload auth x.data).attempt = none ∧
          (handleConnectSsh payload auth x.data).data.session = none := by
        unfold handleConnectSsh
        split
        · exact ⟨rfl, hs⟩
        · split
          · exact ⟨rfl, hs⟩
          · split
            · exact ⟨rfl, hs⟩
            · cases auth with
              | unreadable => exact ⟨rfl, rfl⟩
              | missing => exact ⟨rfl, rfl⟩
              | invalid => exact ⟨rfl, rfl⟩
              | user caller => exact absurd rfl (he payload caller)
      obtain ⟨hattempt, hdata⟩ := hr
      by_cases hd : (handleConnectSsh payload auth x.data).disconnects = true
      · constructor <;> simp [Gateway.respond, terminalGateway, receive, hd, hattempt, ha,
          TerminalSeat.fresh]
      · constructor <;> simp [Gateway.respond, terminalGateway, receive, hd, hattempt, ha, hdata]
    | input data now now' =>
      by_cases hd : (handleInput input x.data.socket data now now').1.disconnects = true
      · constructor <;> simp [Gateway.respond, terminalGateway, receive, hd, ha,
          TerminalSeat.fresh]
      · constructor <;> simp [Gateway.respond, terminalGateway, receive, hd, ha, hs]
  · simp [ha] at hi

theorem unserved_foldlM {events : List (SocketEvent Unit TerminalRequest Callback)}
    {x y : Seat TerminalSeat Attempt} (hx : Unserved x)
    (he : ∀ payload caller, .sends (.connectSsh payload (.user caller)) ∉ events)
    (h : events.foldlM (terminalGateway connect input).after x = some y) : Unserved y := by
  apply Gateway.foldlM_invariant _ hx h
  intro e hm u v hu hv
  apply unserved_after hu _ hv
  rintro payload caller rfl
  exact he payload caller hm

end TerminalVisits

section VncVisits

open Vnc

variable {settings : VncSettings}

/-- Every attempt of the socket is refused by the row in the end. -/
def Barred (row : Option VmRow) (x : Seat (Option VncSession) Vnc.Attempt) : Prop :=
  x.data = none ∧ ∀ a ∈ x.attempts, a = .refused ∨
    ∃ caller, a = .lookup caller ∧ ∀ vm, row = some vm → Terminal.refuses caller vm = true

private theorem barred_after {row : Option VmRow} {q : VncHandshake}
    {x y : Seat (Option VncSession) Vnc.Attempt}
    {e : SocketEvent VncHandshake (Option (List UInt8)) Vnc.Callback}
    (hq : ∀ a, (initSession q).attempt = some a →
      ∃ caller, a = .lookup caller ∧ ∀ vm, row = some vm → Terminal.refuses caller vm = true)
    (hc : ∀ q', e = .connects q' → q' = q)
    (hr : ∀ i reply connects, e = .calls i (.replied reply connects) → reply = some row ∨ reply = none)
    (hx : Barred row x) (h : (vncGateway settings).after x e = some y) : Barred row y := by
  obtain ⟨hd, ha⟩ := hx
  rcases Gateway.after_cases h with ⟨q', rfl, -, rfl⟩ | ⟨rfl, -, rfl⟩ | ⟨r, rfl, -, rfl⟩ |
    ⟨i, c, a, a', f, rfl, hi, hf, rfl⟩
  · obtain rfl := hc q' rfl
    have hdata : (initSession q').data = none := by
      unfold initSession
      split <;> try rfl
      split <;> rfl
    have hall : ∀ a ∈ x.attempts ++ (initSession q').attempt.toList, a = .refused ∨
        ∃ caller, a = .lookup caller ∧ ∀ vm, row = some vm → Terminal.refuses caller vm = true := by
      intro a hm
      rcases List.mem_append.mp hm with hm | hm
      · exact ha a hm
      · exact .inr (hq a (by simpa using hm))
    by_cases hdis : (initSession q').disconnects = true
    · refine ⟨?_, ?_⟩
      · simp [Gateway.respond, vncGateway, hdis]
      · simpa [Gateway.respond, vncGateway, hdis] using hall
    · refine ⟨?_, ?_⟩
      · simp [Gateway.respond, vncGateway, hdis, hdata]
      · simpa [Gateway.respond, vncGateway, hdis] using hall
  · exact ⟨rfl, ha⟩
  · have hresponse : (handleData r x.data : Response (Option VncSession) Vnc.Attempt) =
        { data := none } := by
      rw [hd]
      cases r <;> rfl
    simp only [vncGateway, hresponse]
    exact ⟨rfl, by simpa [Gateway.respond] using ha⟩
  · have hmem := List.mem_of_getElem? hi
    rcases ha a hmem with rfl | ⟨caller, rfl, hrow⟩
    · cases c <;> cases hf
    · cases c with
      | vnc cb => cases hf
      | replied reply connects =>
        have hpair : Vnc.replied settings caller reply connects = (a', f) := Option.some.inj hf
        have hrefused : Vnc.replied settings caller reply connects = (.refused, .disconnect) := by
          unfold Vnc.replied
          rcases hr i reply connects rfl with rfl | rfl
          · cases hv : row with
            | none => rfl
            | some vm => simp [hrow vm hv]
          · rfl
        rw [hrefused] at hpair
        obtain ⟨rfl, rfl⟩ := Prod.mk.inj hpair
        constructor
        · by_cases hp : x.presence = .connected <;> simp [Gateway.apply, hp, vncGateway, hd]
        · intro b hb
          rw [Gateway.apply_attempts] at hb
          rcases List.mem_or_eq_of_mem_set hb with hb | rfl
          · exact ha b hb
          · exact .inl rfl

theorem barred_foldlM {row : Option VmRow} {q : VncHandshake}
    {events : List (SocketEvent VncHandshake (Option (List UInt8)) Vnc.Callback)}
    {x y : Seat (Option VncSession) Vnc.Attempt}
    (hq : ∀ a, (initSession q).attempt = some a →
      ∃ caller, a = .lookup caller ∧ ∀ vm, row = some vm → Terminal.refuses caller vm = true)
    (he : ∀ e ∈ events, (∀ q', e = .connects q' → q' = q) ∧
      ∀ i reply connects, e = .calls i (.replied reply connects) → reply = some row ∨ reply = none)
    (hx : Barred row x) (h : events.foldlM (vncGateway settings).after x = some y) :
    Barred row y := by
  apply Gateway.foldlM_invariant _ hx h
  intro e hm u v hu hv
  obtain ⟨hc, hr⟩ := he e hm
  exact barred_after hq hc hr hu hv

private theorem tcp_opens : ∃ y, [SocketEvent.calls 0 (Vnc.Callback.vnc .tcpConnected)].foldlM
    (vncGateway settings).after ⟨.connected, none, [.connecting {.tcpConnecting}]⟩ = some y ∧
      y.data ≠ none :=
  ⟨_, rfl, Option.some_ne_none VncSession.tcp⟩

private theorem tunnel_opens :
    ∃ y, [SocketEvent.calls 0 (Vnc.Callback.vnc .ready), .calls 0 (.vnc (.forwarded true))].foldlM
      (vncGateway settings).after ⟨.connected, none, [.connecting {.timer, .handshake}]⟩ =
        some y ∧ y.data ≠ none :=
  ⟨_, rfl, Option.some_ne_none VncSession.tunnel⟩

/-- The stream of a VM that is not refused opens once its host answers. -/
theorem stream_opens {row : VmRow} {caller : Caller} {vmId : Option String}
    (hv : vmId.getD "" ≠ "") (hr : Terminal.refuses caller row = false) :
    ∃ (callbacks : List VncCallback) (y : Seat (Option VncSession) Vnc.Attempt),
      (SocketEvent.connects ⟨.user caller, vmId⟩ :: .calls 0 (.replied (some (some row)) true) ::
        callbacks.map fun cb => .calls 0 (.vnc cb)).foldlM (vncGateway settings).after
          (vncGateway settings).start = some y ∧ y.data ≠ none := by
  have hfirst : (vncGateway settings).after (vncGateway settings).start
      (.connects ⟨.user caller, vmId⟩) = some ⟨.connected, none, [.lookup caller]⟩ := by
    simp [Gateway.after, Gateway.start, Gateway.respond, vncGateway, initSession, hv]
  have hreply : ∀ out, replied settings caller (some (some row)) true = (.connecting out, .keep) →
      (vncGateway settings).after ⟨.connected, none, [.lookup caller]⟩
        (.calls 0 (.replied (some (some row)) true)) =
          some ⟨.connected, none, [.connecting out]⟩ := by
    intro out h
    simp [Gateway.after, vncGateway, Attempt.handle, h, Gateway.apply]
  have hout : replied settings caller (some (some row)) true = connectDirect ∨
      replied settings caller (some (some row)) true =
        (.connecting {.timer, .handshake}, .keep) := by
    simp only [replied, Option.join_some, hr, Bool.false_eq_true, if_false]
    split
    · simp only [connectViaBastionTunnel, if_true]
      split
      · exact .inl rfl
      · exact .inr rfl
    · exact .inl rfl
  rcases hout with h | h
  · obtain ⟨y, hy, hopen⟩ := @tcp_opens settings
    refine ⟨[.tcpConnected], y, ?_, hopen⟩
    simp only [List.map_cons, List.map_nil, List.foldlM_cons, hfirst, hreply _ h,
      Option.bind_eq_bind, Option.bind_some] at hy ⊢
    exact hy
  · obtain ⟨y, hy, hopen⟩ := @tunnel_opens settings
    refine ⟨[.ready, .forwarded true], y, ?_, hopen⟩
    simp only [List.map_cons, List.map_nil, List.foldlM_cons, hfirst, hreply _ h,
      Option.bind_eq_bind, Option.bind_some] at hy ⊢
    exact hy

end VncVisits

section Binding

/-- **Fingerprint binding.** A client whose fingerprint is not that of its token gets nothing, the
VNC gateway apart: there it gets a stream exactly of the VMs it would get one of with its own
token. -/
theorem grants_nothing_iff (site : Site) (client : Client) (token : String) (claims : Claims)
    (vmId : Option String) (row : Option VmRow) (entrance : Entrance)
    (hp : presentedToken client.handshake = some (some token))
    (hv : site.verify token = some claims)
    (hne : claims.fp ≠ some (fingerprint site client entrance)) :
    ¬ Grants site client claims vmId row entrance ↔
      (entrance = .vnc → vmId.getD "" = "" ∨
        ∀ vm, row = some vm → Terminal.refuses claims.caller vm = true) := by
  cases entrance with
  | vmHttp =>
    have hno : ¬ Grants site client claims vmId row .vmHttp :=
      fun h => hne (validate_ok_iff.mp h).1
    simp [hno]
  | aiHttp =>
    have hno : ¬ Grants site client claims vmId row .aiHttp :=
      fun h => hne (validate_ok_iff.mp h).1
    simp [hno]
  | terminal =>
    have hno : ¬ Grants site client claims vmId row .terminal := by
      rintro ⟨events, y, hvisit, hy, hopen⟩
      apply hopen
      refine (unserved_foldlM ⟨rfl, rfl⟩ ?_ hy).1
      intro payload caller hm
      obtain ⟨verify, hverify, hauth⟩ := hvisit payload _ hm
      refine terminalAuthentication_ne_user hp ?_ caller hauth.symm
      intro claims' hc
      obtain rfl : claims = claims' := Option.some.inj (hv.symm.trans (hverify _ _ hc))
      exact hne
    simp [hno]
  | vmEvents =>
    have hno : ¬ Grants site client claims vmId row .vmEvents := by
      rintro ⟨user, room, rooms, h⟩
      rw [vmEventsConnection_eq_none hp hv hne] at h
      cases h
    simp [hno]
  | aiChat =>
    have hno : ¬ Grants site client claims vmId row .aiChat := by
      rintro ⟨message, rate, user, text, h⟩
      rw [aiChatConnection_eq_none hp hv hne] at h
      cases h
    simp [hno]
  | vnc =>
    have hauth : vncAuthentication site.verify client.handshake = .user claims.caller := by
      simp [vncAuthentication, hp, hv]
    constructor
    · intro hno _
      by_contra hc
      simp only [not_or, not_forall, Bool.not_eq_true] at hc
      obtain ⟨hid, vm, rfl, hr⟩ := hc
      obtain ⟨callbacks, y, hy, hopen⟩ := @stream_opens site.vnc vm claims.caller vmId hid hr
      refine hno ⟨_, y, ?_, hy, hopen⟩
      intro e he
      simp only [List.mem_cons, List.mem_map] at he
      rcases he with rfl | rfl | ⟨cb, -, rfl⟩
      · simp [hauth]
      · simp
      · simp
    · rintro hc ⟨events, y, hvisit, hy, hopen⟩
      apply hopen
      have hq : ∀ a, (Vnc.initSession ⟨vncAuthentication site.verify client.handshake,
          vmId⟩).attempt = some a → ∃ caller, a = .lookup caller ∧
            ∀ vm, row = some vm → Terminal.refuses caller vm = true := by
        intro a ha
        simp only [Vnc.initSession, hauth] at ha
        split at ha
        · cases ha
        · rename_i hid
          obtain rfl := Option.some.inj ha
          exact ⟨claims.caller, rfl, (hc rfl).resolve_left hid⟩
      exact (barred_foldlM hq hvisit ⟨rfl, by simp [Gateway.start]⟩ hy).1

/-- A client at another address with another user agent than those the token was issued to. -/
def otherClient : Client where
  request := ⟨none, none, some "curl", some "203.0.113.9", none⟩
  handshake := ⟨some "t", none, none, none, none, some "curl", some "203.0.113.9", none⟩

def boundClaims : Claims where
  sub := "u"
  email := "u@example.com"
  role := "USER"
  fp := some "0a2ed211b890c1dbddadd07bfecd7ec21c75a3cd5115f434ba7493f4b7ca6d63"

def plainSite : Site where
  sha256 _ := "fe4a4ca6af2dd5a0508827341f4f278176e735fd6d67fca9f191dc47cfae6406"
  verify token := if token = "t" then some boundClaims else none
  connect := ⟨none, false, "", fun _ => none⟩
  input := auditInput
  vnc := ⟨"", "", "", ""⟩

theorem grants_nothing_iff_terminal :
    ¬ Grants plainSite otherClient boundClaims (some "vm-1") (some Terminal.runningVm) .terminal :=
  (grants_nothing_iff plainSite otherClient "t" boundClaims (some "vm-1")
    (some Terminal.runningVm) .terminal (by decide) (by decide) (by decide)).mpr nofun

/-- The VNC gateway opens the console of the owner of the token to that client. -/
theorem stolen_token_opens_console :
    ¬ ∀ (site : Site) (client : Client) (token : String) (claims : Claims) (vmId : Option String)
      (row : Option VmRow) (entrance : Entrance),
      presentedToken client.handshake = some (some token) → site.verify token = some claims →
      claims.fp ≠ some (fingerprint site client entrance) →
      ¬ Grants site client claims vmId row entrance := by
  intro hall
  have hno := hall plainSite otherClient "t" boundClaims (some "vm-1") (some Terminal.runningVm)
    .vnc (by decide) (by decide) (by decide)
  have hauth : vncAuthentication plainSite.verify otherClient.handshake =
      .user boundClaims.caller := by decide
  obtain ⟨callbacks, y, hy, hopen⟩ := @stream_opens plainSite.vnc Terminal.runningVm
    boundClaims.caller (some "vm-1") (by decide) (by decide)
  refine hno ⟨_, y, ?_, hy, hopen⟩
  intro e he
  simp only [List.mem_cons, List.mem_map] at he
  rcases he with rfl | rfl | ⟨cb, -, rfl⟩
  · simp [hauth]
  · simp
  · simp

end Binding

end CloudVM.Access
