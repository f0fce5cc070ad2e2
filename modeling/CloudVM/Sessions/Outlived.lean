import CloudVM.Sessions.Vnc

/-!
# Sessions of sockets that have left

The callback that registers a session does not look whether its socket is still connected. The
session outlives the socket unless nothing that can lead to one is left when the socket leaves.
-/

namespace CloudVM

namespace Terminal

section Settled

variable {settings : ConnectSettings} {c c' c'' : Connection}

/-- Only less can call back than before. -/
structure Connection.Shrinks (c c' : Connection) : Prop where
  outstanding : c'.outstanding ⊆ c.outstanding
  stages : c'.stages = c.stages
  username : c'.username = c.username
  password : c'.password = c.password
  normalizedPrivateKey : c'.normalizedPrivateKey = c.normalizedPrivateKey

/-- No client connects, no shell and no forwarded connection was asked for, and what is left of the
direct way cannot go on through the bastion or with a password. -/
structure Connection.Settled (settings : ConnectSettings) (c : Connection) : Prop where
  handshake : ∀ k, .handshake k ∉ c.outstanding
  shell : ∀ k, .shell k ∉ c.outstanding
  forwardOut : .forwardOut ∉ c.outstanding
  tunnel : .client .direct ∈ c.outstanding ∨ .timer .direct ∈ c.outstanding →
    c.tryBastionFallback settings = none
  retry : .client .direct ∈ c.outstanding → c.tryPasswordOnlyRetry settings = none

/-- A lookup is settled if its reply leads to no client. -/
def Attempt.Settled (settings : ConnectSettings) : Attempt → Prop
  | .lookup payload _ =>
      settings.bastionConfig = none ∧ ∀ vm, ¬ (closure settings payload vm).hasCredentials
  | .refused => True
  | .connecting c => c.Settled settings

namespace Connection

theorem Shrinks.refl : Shrinks c c := ⟨subset_rfl, rfl, rfl, rfl, rfl⟩

theorem Shrinks.drop (h : Shrinks c c') (src : Source) : Shrinks c (c'.drop src) :=
  { h with outstanding := (Finset.erase_subset _ _).trans h.outstanding }

theorem Shrinks.clearConnectTimeout (h : Shrinks c c') : Shrinks c c'.clearConnectTimeout := by
  unfold Connection.clearConnectTimeout
  split
  · exact h
  · rename_i s _
    have hd := h.drop (.timer s)
    exact ⟨hd.outstanding, hd.stages, hd.username, hd.password, hd.normalizedPrivateKey⟩

theorem Shrinks.tryBastionFallback (h : Shrinks c c')
    (hn : c.tryBastionFallback settings = none) : c'.tryBastionFallback settings = none := by
  have hflag : c'.hasAttemptedBastionFallback = c.hasAttemptedBastionFallback := by
    simp only [hasAttemptedBastionFallback, h.stages]
  unfold Connection.tryBastionFallback at *
  rw [hflag]
  split at hn
  · rename_i hc
    rw [if_pos hc]
  · cases hn

theorem Shrinks.tryPasswordOnlyRetry (h : Shrinks c c')
    (hn : c.tryPasswordOnlyRetry settings = none) : c'.tryPasswordOnlyRetry settings = none := by
  have hflag : c'.hasAttemptedPasswordRetry = c.hasAttemptedPasswordRetry := by
    simp only [hasAttemptedPasswordRetry, h.stages]
  have hpassword : c'.candidatePassword settings = c.candidatePassword settings := by
    simp only [candidatePassword, h.password]
  unfold Connection.tryPasswordOnlyRetry at *
  rw [hflag, hpassword, h.normalizedPrivateKey, h.username]
  split at hn
  · rename_i hc
    rw [if_pos hc]
  · cases hn

theorem Settled.shrinks (hc : c.Settled settings) (h : Shrinks c c') : c'.Settled settings where
  handshake k hk := hc.handshake k (h.outstanding hk)
  shell k hk := hc.shell k (h.outstanding hk)
  forwardOut hf := hc.forwardOut (h.outstanding hf)
  tunnel hk := h.tryBastionFallback (hc.tunnel (hk.imp (h.outstanding ·) (h.outstanding ·)))
  retry hk := h.tryPasswordOnlyRetry (hc.retry (h.outstanding hk))

theorem Settled.endClient (hc : c.Settled settings) (k : ClientKind) : c.endClient k = c := by
  rw [Connection.endClient, if_neg (hc.handshake k)]

private theorem Settled.error (hc : c.Settled settings) {k : ClientKind} {message : String}
    (hk : .client k ∈ c.outstanding) :
    c.error settings k message = (c.clearConnectTimeout, .cleanup) := by
  have hs : Shrinks c c.clearConnectTimeout := Shrinks.refl.clearConnectTimeout
  simp only [Connection.error, hc.endClient]
  by_cases hd : k = .direct
  · subst hd
    have hretry := hs.tryPasswordOnlyRetry (hc.retry hk)
    have htunnel := hs.tryBastionFallback (hc.tunnel (.inl hk))
    simp [hretry, htunnel]
  · simp [hd]

private theorem Settled.timeout (hc : c.Settled settings) {s : AttemptStage}
    (hk : .timer s ∈ c.outstanding) : c.timeout settings s = (c.drop (.timer s), .cleanup) := by
  have hs : Shrinks c (c.drop (.timer s)) := Shrinks.refl.drop _
  simp only [Connection.timeout]
  by_cases hd : s = .direct
  · subst hd
    have htunnel := hs.tryBastionFallback (hc.tunnel (.inr hk))
    simp [htunnel]
  · simp [hd]

private theorem close_shrinks (k : ClientKind) : Shrinks c (c.close k).1 := by
  have hd : Shrinks c ((c.drop (.handshake k)).drop (.client k)) :=
    (Shrinks.refl.drop _).drop _
  simp only [close]
  split
  · exact hd
  · exact hd.clearConnectTimeout

/-- Nothing of a settled connection makes more call back, and none of it is a shell. -/
theorem Settled.handle (hc : c.Settled settings) {cb : SshCallback} {e : Effect ClientKind}
    (h : c.handle settings cb = some (c', e)) : Shrinks c c' ∧ (e = .keep ∨ e = .cleanup) := by
  cases cb with
  | ready k =>
    simp only [Connection.handle, Option.ite_none_right_eq_some] at h
    exact absurd h.1 (hc.handshake k)
  | error k message =>
    simp only [Connection.handle, Option.ite_none_right_eq_some, Option.some.injEq] at h
    have hk := h.1.resolve_left (hc.handshake k)
    rw [hc.error hk] at h
    obtain ⟨rfl, rfl⟩ := Prod.mk.inj h.2
    exact ⟨Shrinks.refl.clearConnectTimeout, .inr rfl⟩
  | close k =>
    simp only [Connection.handle, Option.ite_none_right_eq_some, Option.some.injEq] at h
    have hs := close_shrinks (c := c) k
    have he := c.close_effect k
    rw [h.2] at hs he
    exact ⟨hs, he⟩
  | forwarded ok =>
    simp only [Connection.handle, Option.ite_none_right_eq_some] at h
    exact absurd h.1 hc.forwardOut
  | shellOpened k ok =>
    simp only [Connection.handle, Option.ite_none_right_eq_some] at h
    exact absurd h.1 (hc.shell k)
  | data k =>
    simp only [Connection.handle, Option.ite_none_right_eq_some, Option.some.injEq] at h
    obtain ⟨rfl, rfl⟩ := Prod.mk.inj h.2
    exact ⟨.refl, .inl rfl⟩
  | streamClosed k =>
    simp only [Connection.handle, Option.ite_none_right_eq_some, Option.some.injEq] at h
    obtain ⟨rfl, rfl⟩ := Prod.mk.inj h.2
    exact ⟨Shrinks.refl.drop _, .inr rfl⟩
  | timeout s =>
    simp only [Connection.handle, Option.ite_none_right_eq_some, Option.some.injEq] at h
    rw [hc.timeout h.1] at h
    obtain ⟨rfl, rfl⟩ := Prod.mk.inj h.2
    exact ⟨Shrinks.refl.drop _, .inr rfl⟩

end Connection

private theorem settled_replied {payload : ConnectPayload} {caller : Caller}
    {row : Option (Option VmRow)} {connects : Bool}
    (h : Attempt.Settled settings (.lookup payload caller)) :
    Attempt.Settled settings (replied settings payload caller row connects) := by
  obtain ⟨hb, hn⟩ := h
  unfold replied
  split
  · trivial
  · rename_i vm _
    split
    · trivial
    · have hcred : (closure settings payload vm).hasCredentials = false := by simpa using hn vm
      have htimer : ((closure settings payload vm).setConnectTimeout .direct).hasCredentials =
          false := hcred
      simp only [Attempt.Settled, connectDirect, htimer, Bool.false_and, Bool.false_eq_true,
        if_false]
      constructor
      · simp [Connection.setConnectTimeout, Connection.await, closure]
      · simp [Connection.setConnectTimeout, Connection.await, closure]
      · simp [Connection.setConnectTimeout, Connection.await, closure]
      · simp [Connection.tryBastionFallback, hb]
      · simp [Connection.setConnectTimeout, Connection.await, closure]

theorem staysSettled (settings : ConnectSettings) (input : Settings) :
    (terminalGateway settings input).StaysSettled (Attempt.Settled settings) := by
  intro cb a a' e ha h
  cases a with
  | lookup payload caller =>
    cases cb with
    | replied row connects =>
      obtain ⟨rfl, rfl⟩ := Prod.mk.inj (Option.some.inj h)
      exact ⟨settled_replied ha, by simp⟩
    | ssh cb => cases h
  | refused => cases cb <;> cases h
  | connecting c =>
    cases cb with
    | replied row connects => cases h
    | ssh cb =>
      obtain ⟨⟨c', e'⟩, hc, hout⟩ := Option.map_eq_some_iff.mp h
      obtain ⟨rfl, rfl⟩ := Prod.mk.inj hout
      have hsettled : c.Settled settings := ha
      obtain ⟨hs, he⟩ := hsettled.handle hc
      refine ⟨hsettled.shrinks hs, ?_⟩
      rcases he with rfl | rfl <;> simp

end Settled

end Terminal

namespace Vnc

/-- No connection is being opened and none was asked for. -/
def Attempt.Settled : Attempt → Prop
  | .lookup _ => False
  | .refused => True
  | .connecting out => .tcpConnecting ∉ out ∧ .handshake ∉ out ∧ .forwardOut ∉ out

theorem staysSettled (settings : VncSettings) :
    (vncGateway settings).StaysSettled Attempt.Settled := by
  intro cb a a' e ha h
  cases a with
  | lookup caller => exact ha.elim
  | refused => cases cb <;> cases h
  | connecting out =>
    cases cb with
    | replied row connects => cases h
    | vnc cb =>
      obtain ⟨⟨out', e'⟩, hc, hout⟩ := Option.map_eq_some_iff.mp h
      obtain ⟨rfl, rfl⟩ := Prod.mk.inj hout
      obtain ⟨htcp, hssh, hforward⟩ := ha
      cases cb <;> simp only [handle, endClient, htcp, hssh, hforward, false_or, if_false,
        Option.ite_none_right_eq_some, Option.some.injEq, Prod.mk.injEq, reduceCtorEq] at hc
      all_goals
        obtain ⟨-, rfl, rfl⟩ := hc
        simp_all [Attempt.Settled]

end Vnc

section Sockets

open Terminal (ConnectSettings TerminalSeat terminalGateway TerminalRequest)
open Vnc (VncSettings VncSession VncHandshake vncGateway)

/-- **Sessions and sockets.** Where no socket leaves before its attempts are settled, each key of
the sessions of both gateways is the id of a socket that is connected. -/
theorem sessions_end_with_sockets (settings : ConnectSettings) (input : Terminal.Settings)
    (vnc : VncSettings) :
    (∀ (hub : String → Seat TerminalSeat Terminal.Attempt)
      (trace : List ((String × SocketEvent Unit TerminalRequest Terminal.Callback) ×
        (String → Seat TerminalSeat Terminal.Attempt))),
      Run (terminalGateway settings input).Step
        (fun _ => (terminalGateway settings input).start) trace hub →
      Along (fun h l => (terminalGateway settings input).LeavesSettled
        (Terminal.Attempt.Settled settings) (h l.1) l.2)
        (fun _ => (terminalGateway settings input).start) trace →
      ∀ s, (hub s).data.session ≠ none → (hub s).presence = .connected) ∧
    (∀ (hub : String → Seat (Option VncSession) Vnc.Attempt)
      (trace : List ((String × SocketEvent VncHandshake (Option (List UInt8)) Vnc.Callback) ×
        (String → Seat (Option VncSession) Vnc.Attempt))),
      Run (vncGateway vnc).Step (fun _ => (vncGateway vnc).start) trace hub →
      Along (fun h l => (vncGateway vnc).LeavesSettled Vnc.Attempt.Settled (h l.1) l.2)
        (fun _ => (vncGateway vnc).start) trace →
      ∀ s, (hub s).data ≠ none → (hub s).presence = .connected) := by
  constructor
  · intro hub trace h hl
    have hfresh : ¬ (terminalGateway settings input).fresh.session ≠ none := by
      simp [terminalGateway, TerminalSeat.fresh]
    exact Gateway.held_connected (fun d => d.session ≠ none) hfresh
      (Terminal.staysSettled settings input) h hl
  · intro hub trace h hl
    have hfresh : ¬ (vncGateway vnc).fresh ≠ none := by simp [vncGateway]
    exact Gateway.held_connected (fun d => d ≠ none) hfresh (Vnc.staysSettled vnc) h hl

def plainSettings : ConnectSettings := ⟨none, false, "", fun _ => none⟩

def noBastion : VncSettings := ⟨"", "", "", ""⟩

private theorem leavesSettled_of_stays {σ A κ Q R C : Type} {G : Gateway σ A κ Q R C}
    {Settled : A → Prop} {x y : Seat σ A} {e : SocketEvent Q R C} (hy : G.after x e = some y)
    (h : y.presence ≠ .left) : G.LeavesSettled Settled x e := by
  intro z hz _ hleft
  obtain rfl : y = z := Option.some.inj (hy.symm.trans hz)
  exact absurd hleft h

/-- A session of each gateway that is open. -/
theorem sessions_end_with_sockets_open :
    (∃ hub trace, Run (terminalGateway plainSettings auditInput).Step
      (fun _ => (terminalGateway plainSettings auditInput).start) trace hub ∧
      (hub "s").data.session = some (0, .direct) ∧ (hub "s").presence = .connected) ∧
    (∃ hub trace, Run (vncGateway noBastion).Step
      (fun _ => (vncGateway noBastion).start) trace hub ∧
      (hub "s").data = some .tcp ∧ (hub "s").presence = .connected) := by
  constructor
  · let gateway := terminalGateway plainSettings auditInput
    have hpasses : ∃ y, gateway.Passes
        (gateway.LeavesSettled (Terminal.Attempt.Settled plainSettings)) gateway.start
        [.connects (),
          .sends (.connectSsh ⟨some "vm-1", some "secret", none, none⟩ (.user ⟨"u", .user⟩)),
          .calls 0 (.replied (some (some Terminal.runningVm)) true), .calls 0 (.ssh (.ready .direct)),
          .calls 0 (.ssh (.shellOpened .direct true))] y ∧ y.data.session = some (0, .direct) := by
      refine ⟨_, ⟨leavesSettled_of_stays rfl (by decide), _, rfl,
        leavesSettled_of_stays rfl (by decide), _, rfl,
        leavesSettled_of_stays rfl (by decide), _, rfl,
        leavesSettled_of_stays rfl (by decide), _, rfl,
        leavesSettled_of_stays rfl (by decide), _, rfl, rfl⟩, rfl⟩
    obtain ⟨y, hy, hsession⟩ := hpasses
    obtain ⟨trace, hub, h, hl, rfl⟩ :=
      Gateway.Passes.exists_run "s" (fun _ => gateway.start) hy
    have hopen : (hub "s").data.session ≠ none := by simp [hsession]
    exact ⟨hub, trace, h, hsession,
      (sessions_end_with_sockets plainSettings auditInput noBastion).1 hub trace h hl "s" hopen⟩
  · let gateway := vncGateway noBastion
    have hpasses : ∃ y, gateway.Passes (gateway.LeavesSettled Vnc.Attempt.Settled) gateway.start
        [.connects ⟨.user ⟨"u", .user⟩, some "vm-1"⟩,
          .calls 0 (.replied (some (some Terminal.runningVm)) true), .calls 0 (.vnc .tcpConnected)] y ∧
        y.data = some .tcp := by
      refine ⟨_, ⟨leavesSettled_of_stays rfl (by decide), _, rfl,
        leavesSettled_of_stays rfl (by decide), _, rfl,
        leavesSettled_of_stays rfl (by decide), _, rfl, rfl⟩, rfl⟩
    obtain ⟨y, hy, hsession⟩ := hpasses
    obtain ⟨trace, hub, h, hl, rfl⟩ :=
      Gateway.Passes.exists_run "s" (fun _ => gateway.start) hy
    have hopen : (hub "s").data ≠ none := by simp [hsession]
    exact ⟨hub, trace, h, hsession,
      (sessions_end_with_sockets plainSettings auditInput noBastion).2 hub trace h hl "s" hopen⟩

/-- In both gateways the reply of the database may come after the socket has left. -/
theorem session_outlives_socket :
    (¬ ∀ (settings : ConnectSettings) (input : Terminal.Settings)
      (hub : String → Seat TerminalSeat Terminal.Attempt)
      (trace : List ((String × SocketEvent Unit TerminalRequest Terminal.Callback) ×
        (String → Seat TerminalSeat Terminal.Attempt))),
      Run (terminalGateway settings input).Step
        (fun _ => (terminalGateway settings input).start) trace hub →
      ∀ s, (hub s).data.session ≠ none → (hub s).presence = .connected) ∧
    (¬ ∀ (vnc : VncSettings) (hub : String → Seat (Option VncSession) Vnc.Attempt)
      (trace : List ((String × SocketEvent VncHandshake (Option (List UInt8)) Vnc.Callback) ×
        (String → Seat (Option VncSession) Vnc.Attempt))),
      Run (vncGateway vnc).Step (fun _ => (vncGateway vnc).start) trace hub →
      ∀ s, (hub s).data ≠ none → (hub s).presence = .connected) := by
  constructor
  · intro hall
    let gateway := terminalGateway plainSettings auditInput
    have hrun : ((List.foldlM gateway.after gateway.start [.connects (),
        .sends (.connectSsh ⟨some "vm-1", some "secret", none, none⟩ (.user ⟨"u", .user⟩)),
        .disconnects, .calls 0 (.replied (some (some Terminal.runningVm)) true),
        .calls 0 (.ssh (.ready .direct)), .calls 0 (.ssh (.shellOpened .direct true))]).map
          fun y => (y.data.session, y.presence)) = some (some (0, .direct), .left) := by decide
    simp only [Option.map_eq_some_iff, Prod.mk.injEq] at hrun
    obtain ⟨y, hy, hsession, hleft⟩ := hrun
    obtain ⟨trace, hub, h, -, rfl⟩ := Gateway.Passes.exists_run "s"
      (fun _ => gateway.start) (Gateway.passes_of_foldlM hy)
    have hpresent := hall plainSettings auditInput hub trace h "s" (by simp [hsession])
    rw [hleft] at hpresent
    cases hpresent
  · intro hall
    let gateway := vncGateway noBastion
    have hrun : ((List.foldlM gateway.after gateway.start [
        .connects ⟨.user ⟨"u", .user⟩, some "vm-1"⟩, .disconnects,
        .calls 0 (.replied (some (some Terminal.runningVm)) true), .calls 0 (.vnc .tcpConnected)]).map
          fun y => (y.data, y.presence)) = some (some .tcp, .left) := by decide
    simp only [Option.map_eq_some_iff, Prod.mk.injEq] at hrun
    obtain ⟨y, hy, hsession, hleft⟩ := hrun
    obtain ⟨trace, hub, h, -, rfl⟩ := Gateway.Passes.exists_run "s"
      (fun _ => gateway.start) (Gateway.passes_of_foldlM hy)
    have hpresent := hall noBastion hub trace h "s" (by simp [hsession])
    rw [hleft] at hpresent
    cases hpresent

end Sockets

end CloudVM
