import CloudVM.Framework.Callbacks
import CloudVM.Sessions.Attempts
import CloudVM.Sessions.Vnc

/-!
# Whose machine a session reaches

The check of the owner stands between two replies: the token of the socket comes with the request,
the row of the machine later, and what is typed and shown comes after many more callbacks, some of
them of older attempts. Whatever is relayed can still be traced back to a check that it passed.
-/

namespace CloudVM

/-- The caller may open a session on the machine. -/
structure Allowed (caller : Terminal.Caller) (vm : VmRow) : Prop where
  owner : caller.role = .admin ∨ vm.userId = caller.sub
  running : vm.status = .running
  reachable : vm.sshHost.getD "" ≠ ""

theorem allowed_iff {caller : Terminal.Caller} {vm : VmRow} :
    Terminal.refuses caller vm = false ↔ Allowed caller vm := by
  simp only [Terminal.refuses, Bool.or_eq_false_iff, Bool.and_eq_false_iff, decide_eq_false_iff_not,
    not_not, beq_eq_false_iff_ne, ne_eq]
  constructor
  · rintro ⟨⟨hr, hv⟩, hh⟩
    exact ⟨hr, hv, hh⟩
  · rintro ⟨hr, hv, hh⟩
    exact ⟨⟨hr, hv⟩, hh⟩

namespace Terminal

open Gateway

variable {settings : ConnectSettings} {input : Settings} {i : ℕ}
  {events : List (SocketEvent Unit TerminalRequest Callback)}

/-- The attempt was asked for with a good token, and then its machine was one of the caller's. -/
def Authorised (settings : ConnectSettings) (input : Settings)
    (events : List (SocketEvent Unit TerminalRequest Callback)) (i : ℕ) : Prop :=
  ∃ before payload caller between vm connects later, Allowed caller vm ∧
    (terminalGateway settings input).Starts before (.sends (.connectSsh payload (.user caller))) i
      (.lookup payload caller) ∧
    events = before ++ .sends (.connectSsh payload (.user caller)) :: between ++
      .calls i (.replied (some (some vm)) connects) :: later

theorem Authorised.append (later : List (SocketEvent Unit TerminalRequest Callback))
    (h : Authorised settings input events i) : Authorised settings input (events ++ later) i := by
  obtain ⟨before, payload, caller, between, vm, connects, rest, hallowed, hstarts, rfl⟩ := h
  exact ⟨before, payload, caller, between, vm, connects, rest ++ later, hallowed, hstarts, by simp⟩

theorem lookup_of_begins {x : Seat TerminalSeat Attempt}
    {e : SocketEvent Unit TerminalRequest Callback} {a : Attempt}
    (h : (terminalGateway settings input).begins x e = some a) :
    ∃ payload caller, e = .sends (.connectSsh payload (.user caller)) ∧ a = .lookup payload caller := by
  cases e with
  | connects q => cases h
  | disconnects => cases h
  | calls j c => cases h
  | sends r =>
    cases r with
    | input data now now' => cases h
    | connectSsh payload auth =>
      change (handleConnectSsh payload auth x.data).attempt = some a at h
      unfold handleConnectSsh at h
      split at h
      · cases h
      split at h
      · cases h
      split at h
      · cases h
      cases auth with
      | unreadable => cases h
      | missing => cases h
      | invalid => cases h
      | user caller => exact ⟨payload, caller, rfl, (Option.some.inj h).symm⟩

theorem reply_of_called {payload : ConnectPayload} {caller : Caller} {cs : List Callback}
    {c : Connection}
    (h : (terminalGateway settings input).called (.lookup payload caller) cs = some (.connecting c)) :
    ∃ vm connects, Allowed caller vm ∧ .replied (some (some vm)) connects ∈ cs := by
  cases cs with
  | nil => cases h
  | cons cb cs =>
    rw [called, List.foldlM_cons, Option.bind_eq_bind, Option.bind_eq_some_iff] at h
    obtain ⟨a, ha, h⟩ := h
    cases cb with
    | ssh cb => cases ha
    | replied row connects =>
      obtain rfl : replied settings payload caller row connects = a := Option.some.inj ha
      unfold replied at h
      split at h
      · -- a refused lookup is not called again
        cases cs with
        | nil => cases h
        | cons cb cs => cases cb <;> cases h
      · rename_i vm hvm
        split at h
        · cases cs with
          | nil => cases h
          | cons cb cs => cases cb <;> cases h
        · rename_i hallowed
          obtain rfl := Option.join_eq_some_iff.mp hvm
          exact ⟨vm, connects, allowed_iff.mp (Bool.eq_false_iff.mpr hallowed), .head _⟩

theorem authorised_of_arises {c : Connection}
    (h : (terminalGateway settings input).Arises events i (.connecting c)) :
    Authorised settings input events i := by
  obtain ⟨before, e, after, a, rfl, hstarts, hcalled⟩ := h
  obtain ⟨payload, caller, rfl, rfl⟩ := hstarts.elim fun x hx => lookup_of_begins hx.2.2
  obtain ⟨vm, connects, hallowed, hmem⟩ := reply_of_called hcalled
  obtain ⟨between, later, rfl⟩ := List.append_of_mem (mem_of_mem_callbacks hmem)
  exact ⟨before, payload, caller, between, vm, connects, later, hallowed, hstarts, by simp⟩

theorem connecting_of_ssh {a a' : Attempt} {cb : SshCallback} {f : Effect ClientKind}
    (h : a.handle settings (.ssh cb) = some (a', f)) : ∃ c, a = .connecting c := by
  cases a with
  | lookup payload caller => cases h
  | refused => cases h
  | connecting c => exact ⟨c, rfl⟩

theorem connecting_of_register {a a' : Attempt} {cb : Callback} {k : ClientKind}
    (h : a.handle settings cb = some (a', .register k)) : ∃ c, a = .connecting c := by
  cases cb with
  | ssh cb => exact connecting_of_ssh h
  | replied row connects => cases a <;> cases h

theorem receive_keeps_session (r : TerminalRequest) (d : TerminalSeat) {i : ℕ} {k : ClientKind}
    (h : (receive input r d).data.session = some (i, k)) : d.session = some (i, k) := by
  cases r with
  | input data now now' => exact h
  | connectSsh payload auth =>
    simp only [receive, handleConnectSsh] at h
    split at h
    · exact h
    split at h
    · exact h
    split at h
    · exact h
    cases auth <;> cases h

/-- In every run of the gateway, what a shell shows at a socket, and the shell that takes what is
typed there, is of an attempt that was asked for with a good token and reached a machine that its
user may use. -/
theorem shells_are_authorised {hub : String → Seat TerminalSeat Attempt}
    {trace : List ((String × SocketEvent Unit TerminalRequest Callback) ×
      (String → Seat TerminalSeat Attempt))}
    (h : Run (terminalGateway settings input).Step (fun _ => (terminalGateway settings input).start)
      trace hub) (s : String) :
    (∀ i k, .calls i (.ssh (.data k)) ∈ eventsAt s trace →
        Authorised settings input (eventsAt s trace) i) ∧
      ∀ i k, (hub s).data.session = some (i, k) →
        Authorised settings input (eventsAt s trace) i := by
  have hseat := seat_of_run h s
  refine ⟨?_, ?_⟩
  · intro i k hm
    refine called_origin (P := fun events => Authorised settings input events i)
      (fun _ later => .append later) ?_ hseat hm
    intro events a a' f harises hhandle
    obtain ⟨c, rfl⟩ := connecting_of_ssh hhandle
    exact authorised_of_arises harises
  · intro i k hsession
    refine held_origin (P := fun events => Authorised settings input events i)
      (fun d => d.session = some (i, k))
      (fun _ later => .append later) (by simp [terminalGateway, TerminalSeat.fresh]) ?_ ?_ ?_ hseat hsession
    · rintro q hq
      cases hq
    · exact fun r d => receive_keeps_session r d
    · intro events j a cb a' session d harises hhandle hheld
      obtain ⟨c, rfl⟩ := connecting_of_register hhandle
      obtain rfl : j = i := by
        have hpair := Option.some.inj hheld
        exact congrArg Prod.fst hpair
      exact authorised_of_arises harises

/-- A first session. -/
theorem shells_are_authorised_first :
    ∃ (hub : String → Seat TerminalSeat Attempt)
      (trace : List ((String × SocketEvent Unit TerminalRequest Callback) ×
        (String → Seat TerminalSeat Attempt))),
      Run (terminalGateway ⟨none, false, "", fun _ => none⟩ auditInput).Step
        (fun _ => (terminalGateway ⟨none, false, "", fun _ => none⟩ auditInput).start) trace hub ∧
      (hub "s").data.session = some (0, .direct) ∧
      Authorised ⟨none, false, "", fun _ => none⟩ auditInput (eventsAt "s" trace) 0 := by
  let gateway := terminalGateway ⟨none, false, "", fun _ => none⟩ auditInput
  have hrun : ((List.foldlM gateway.after gateway.start [.connects (),
      .sends (.connectSsh ⟨some "vm-1", some "secret", none, none⟩ (.user ⟨"u", .user⟩)),
      .calls 0 (.replied (some (some runningVm)) true), .calls 0 (.ssh (.ready .direct)),
      .calls 0 (.ssh (.shellOpened .direct true))]).map
        fun y => y.data.session) = some (some (0, .direct)) := by decide
  obtain ⟨y, hy, hsession⟩ := Option.map_eq_some_iff.mp hrun
  obtain ⟨trace, hub, h, -, rfl⟩ :=
    Passes.exists_run "s" (fun _ => gateway.start) (passes_of_foldlM hy)
  exact ⟨hub, trace, h, hsession, (shells_are_authorised h "s").2 0 .direct hsession⟩

end Terminal

namespace Vnc

open Gateway
open Terminal (Authentication Caller)

variable {settings : VncSettings} {i : ℕ}
  {events : List (SocketEvent VncHandshake (Option (List UInt8)) Callback)}

/-- The socket came with a good token, and then its machine was one of the caller's. -/
def Authorised (events : List (SocketEvent VncHandshake (Option (List UInt8)) Callback)) : Prop :=
  ∃ before q caller between i vm connects later, q.auth = .user caller ∧ Allowed caller vm ∧
    events = before ++ .connects q :: between ++
      .calls i (.replied (some (some vm)) connects) :: later

theorem Authorised.append (later : List (SocketEvent VncHandshake (Option (List UInt8)) Callback))
    (h : Authorised events) : Authorised (events ++ later) := by
  obtain ⟨before, q, caller, between, i, vm, connects, rest, hq, hallowed, rfl⟩ := h
  exact ⟨before, q, caller, between, i, vm, connects, rest ++ later, hq, hallowed, by simp⟩

theorem lookup_of_begins {x : Seat (Option VncSession) Attempt}
    {e : SocketEvent VncHandshake (Option (List UInt8)) Callback} {a : Attempt}
    (h : (vncGateway settings).begins x e = some a) :
    ∃ q caller, e = .connects q ∧ q.auth = .user caller ∧ a = .lookup caller := by
  cases e with
  | disconnects => cases h
  | calls j c => cases h
  | sends payload =>
    change (handleData payload x.data).attempt = some a at h
    unfold handleData at h
    split at h <;> cases h
  | connects q =>
    change (initSession q).attempt = some a at h
    unfold initSession at h
    split at h
    · cases h
    · cases h
    · cases h
    · rename_i caller hauth
      split at h
      · cases h
      · exact ⟨q, caller, rfl, hauth, (Option.some.inj h).symm⟩

theorem reply_of_called {caller : Caller} {cs : List Callback} {out : Finset Source}
    (h : (vncGateway settings).called (.lookup caller) cs = some (.connecting out)) :
    ∃ vm connects, Allowed caller vm ∧ .replied (some (some vm)) connects ∈ cs := by
  cases cs with
  | nil => cases h
  | cons cb cs =>
    rw [called, List.foldlM_cons, Option.bind_eq_bind, Option.bind_eq_some_iff] at h
    obtain ⟨a, ha, h⟩ := h
    have hrefused : cs.foldlM (fun a c => ((vncGateway settings).handle c a).map Prod.fst) .refused ≠
        some (.connecting out) := by
      intro h
      cases cs with
      | nil => cases h
      | cons cb cs => cases cb <;> cases h
    cases cb with
    | vnc cb => cases ha
    | replied row connects =>
      obtain rfl : (replied settings caller row connects).1 = a := Option.some.inj ha
      unfold replied at h
      split at h
      · exact (hrefused h).elim
      · rename_i vm hvm
        split at h
        · exact (hrefused h).elim
        · rename_i hallowed
          obtain rfl := Option.join_eq_some_iff.mp hvm
          exact ⟨vm, connects, allowed_iff.mp (Bool.eq_false_iff.mpr hallowed), .head _⟩

theorem authorised_of_arises {out : Finset Source}
    (h : (vncGateway settings).Arises events i (.connecting out)) : Authorised events := by
  obtain ⟨before, e, after, a, rfl, ⟨x, -, -, hbegins⟩, hcalled⟩ := h
  obtain ⟨q, caller, rfl, hauth, rfl⟩ := lookup_of_begins hbegins
  obtain ⟨vm, connects, hallowed, hmem⟩ := reply_of_called hcalled
  obtain ⟨between, later, rfl⟩ := List.append_of_mem (mem_of_mem_callbacks hmem)
  exact ⟨before, q, caller, between, i, vm, connects, later, hauth, hallowed, by simp⟩

theorem connecting_of_vnc {a a' : Attempt} {cb : VncCallback} {f : Effect VncSession}
    (h : a.handle settings (.vnc cb) = some (a', f)) : ∃ out, a = .connecting out := by
  cases a with
  | lookup caller => cases h
  | refused => cases h
  | connecting out => exact ⟨out, rfl⟩

theorem replied_registers_nothing (caller : Caller) (row : Option (Option VmRow)) (connects : Bool)
    (session : VncSession) : (replied settings caller row connects).2 ≠ .register session := by
  unfold replied connectViaBastionTunnel connectDirect
  split
  · simp
  split
  · simp
  split
  · split
    · simp
    · split <;> simp
  · simp

theorem connecting_of_register {a a' : Attempt} {cb : Callback} {session : VncSession}
    (h : a.handle settings cb = some (a', .register session)) : ∃ out, a = .connecting out := by
  cases cb with
  | vnc cb => exact connecting_of_vnc h
  | replied row connects =>
    cases a with
    | lookup caller =>
      have hout : replied settings caller row connects = (a', .register session) := Option.some.inj h
      exact (replied_registers_nothing caller row connects session (congrArg Prod.snd hout)).elim
    | refused => cases h
    | connecting out => cases h

/-- In every run of the gateway, the screen that is shown at a socket, and the one that takes what
is typed and clicked there, is of a machine that its user may use. -/
theorem screens_are_authorised {hub : String → Seat (Option VncSession) Attempt}
    {trace : List ((String × SocketEvent VncHandshake (Option (List UInt8)) Callback) ×
      (String → Seat (Option VncSession) Attempt))}
    (h : Run (vncGateway settings).Step (fun _ => (vncGateway settings).start) trace hub)
    (s : String) :
    (∀ i cb, cb = .tcpData ∨ cb = .streamData → .calls i (.vnc cb) ∈ eventsAt s trace →
      Authorised (eventsAt s trace)) ∧
    ((hub s).data ≠ none → Authorised (eventsAt s trace)) := by
  have hseat := seat_of_run h s
  refine ⟨?_, ?_⟩
  · intro i cb _ hm
    refine called_origin (P := Authorised) (fun _ later => .append later) ?_ hseat hm
    intro events a a' f harises hhandle
    obtain ⟨out, rfl⟩ := connecting_of_vnc hhandle
    exact authorised_of_arises harises
  · intro hsession
    refine held_origin (P := Authorised) (fun d => d ≠ none) (fun _ later => .append later)
      (by simp [vncGateway]) ?_ ?_ ?_ hseat hsession
    · intro q
      change ¬ (initSession q).data ≠ none
      unfold initSession
      split
      · simp
      · simp
      · simp
      · split <;> simp
    · intro payload d hd
      change (handleData payload d).data ≠ none at hd
      unfold handleData at hd
      split at hd <;> simp_all
    · intro events j a cb a' session d harises hhandle _
      obtain ⟨out, rfl⟩ := connecting_of_register hhandle
      exact authorised_of_arises harises

/-- A first screen. -/
theorem screens_are_authorised_first :
    ∃ (hub : String → Seat (Option VncSession) Attempt)
      (trace : List ((String × SocketEvent VncHandshake (Option (List UInt8)) Callback) ×
        (String → Seat (Option VncSession) Attempt))),
      Run (vncGateway ⟨"", "", "", ""⟩).Step (fun _ => (vncGateway ⟨"", "", "", ""⟩).start) trace hub ∧
      (hub "s").data = some .tcp ∧ Authorised (eventsAt "s" trace) := by
  let gateway := vncGateway ⟨"", "", "", ""⟩
  have hrun : ((List.foldlM gateway.after gateway.start [.connects ⟨.user ⟨"u", .user⟩, some "vm-1"⟩,
      .calls 0 (.replied (some (some Terminal.runningVm)) true), .calls 0 (.vnc .tcpConnected)]).map
        fun y => y.data) = some (some .tcp) := by decide
  obtain ⟨y, hy, hsession⟩ := Option.map_eq_some_iff.mp hrun
  obtain ⟨trace, hub, h, -, rfl⟩ :=
    Passes.exists_run "s" (fun _ => gateway.start) (passes_of_foldlM hy)
  have hopen : (hub "s").data ≠ none := by simp [hsession]
  exact ⟨hub, trace, h, hsession, (screens_are_authorised h "s").2 hopen⟩

end Vnc

end CloudVM
