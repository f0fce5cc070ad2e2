import CloudVM.Sessions.Connect

/-!
# Opening a VNC stream

The VNC gateway opens the stream as soon as the socket connects: over TCP, or through an SSH
tunnel where a bastion is configured. Messages to the client are left out.
-/

namespace CloudVM.Vnc

open Terminal (Authentication Caller)

section State

/-- What can still call back: a TCP connection that opens, one that did or failed, the same of the
SSH client, the forwarded connection that was asked for, its stream, and the timer. -/
inductive Source where
  | tcpConnecting
  | tcp
  | handshake
  | client
  | forwardOut
  | stream
  | timer
deriving DecidableEq, Repr

inductive VncCallback where
  | tcpConnected
  | tcpError
  | tcpData
  | tcpClosed
  | ready
  | forwarded (ok : Bool)
  | sshError
  | sshClosed
  | streamData
  | streamClosed
  | streamError
  | timeout
deriving DecidableEq, Repr

/-- Reply to the lookup of the VM, missing if it failed, or a later callback. -/
inductive Callback where
  | replied (row : Option (Option VmRow)) (connects : Bool)
  | vnc (cb : VncCallback)
deriving DecidableEq

inductive Attempt where
  | lookup (caller : Caller)
  | refused
  | connecting (outstanding : Finset Source)
deriving DecidableEq

inductive VncSession where
  | tcp
  | tunnel
deriving DecidableEq, Repr

/-- The environment of the service; host and credentials are trimmed. -/
structure VncSettings where
  bastionHost : String
  bastionUser : String
  bastionPass : String
  rawKey : String
deriving DecidableEq, Repr

/-- The query and what the token of the handshake proves. -/
structure VncHandshake where
  auth : Authentication
  vmId : Option String
deriving DecidableEq, Repr

end State

section Handlers

variable (settings : VncSettings)

def initSession (q : VncHandshake) : Response (Option VncSession) Attempt :=
  match q.auth with
  | .unreadable => { data := none, disconnects := true }
  | .missing => { data := none, disconnects := true }
  | .invalid => { data := none, disconnects := true }
  | .user caller =>
      if q.vmId.getD "" = "" then { data := none, disconnects := true }
      else { data := none, attempt := some (.lookup caller) }

def connectDirect : Attempt × Effect VncSession := (.connecting {.tcpConnecting}, .keep)

/-- The timer is armed before the client connects; if it cannot, the promise is rejected. -/
def connectViaBastionTunnel (connects : Bool) : Attempt × Effect VncSession :=
  if settings.bastionUser = "" ∨ (settings.bastionPass = "" ∧ settings.rawKey = "") then
    connectDirect
  else if connects then (.connecting {.timer, .handshake}, .keep)
  else (.connecting {.timer}, .disconnect)

def replied (caller : Caller) (row : Option (Option VmRow)) (connects : Bool) :
    Attempt × Effect VncSession :=
  match row.join with
  | none => (.refused, .disconnect)
  | some vm =>
      if Terminal.refuses caller vm then (.refused, .disconnect)
      else if settings.bastionHost ≠ "" then connectViaBastionTunnel settings connects
      else connectDirect

/-- `ssh.end()`. -/
def endClient (outstanding : Finset Source) : Finset Source :=
  if .handshake ∈ outstanding then insert .client (outstanding.erase .handshake) else outstanding

def handle (out : Finset Source) : VncCallback → Option (Finset Source × Effect VncSession)
  | .tcpConnected =>
      if .tcpConnecting ∈ out then some (insert .tcp (out.erase .tcpConnecting), .register .tcp)
      else none
  | .tcpError =>
      if .tcpConnecting ∈ out ∨ .tcp ∈ out then
        some (insert .tcp (out.erase .tcpConnecting), .disconnect) else none
  | .tcpData => if .tcp ∈ out then some (out, .keep) else none
  | .tcpClosed =>
      if .tcpConnecting ∈ out ∨ .tcp ∈ out then
        some ((out.erase .tcpConnecting).erase .tcp, .cleanup) else none
  | .ready =>
      if .handshake ∈ out then some (insert .forwardOut (endClient out), .keep) else none
  | .forwarded ok =>
      if .forwardOut ∈ out then
        let rest := (out.erase .forwardOut).erase .timer
        if ok then some (insert .stream rest, .register .tunnel)
        else some (endClient rest, .disconnect)
      else none
  | .sshError =>
      if .handshake ∈ out ∨ .client ∈ out then some (endClient (out.erase .timer), .disconnect)
      else none
  | .sshClosed =>
      if .handshake ∈ out ∨ .client ∈ out then
        some (((out.erase .handshake).erase .client).erase .timer, .cleanup) else none
  | .streamData => if .stream ∈ out then some (out, .keep) else none
  | .streamClosed => if .stream ∈ out then some (out.erase .stream, .cleanup) else none
  | .streamError => if .stream ∈ out then some (out, .cleanup) else none
  | .timeout => if .timer ∈ out then some (endClient (out.erase .timer), .disconnect) else none

def Attempt.handle : Callback → Attempt → Option (Attempt × Effect VncSession)
  | .replied row connects, .lookup caller => some (replied settings caller row connects)
  | .vnc cb, .connecting out => (Vnc.handle out cb).map fun r => (.connecting r.1, r.2)
  | _, _ => none

/-- `vnc:data`. The payload is missing if it is nothing a buffer can be made of. -/
def handleData (payload : Option (List UInt8)) (session : Option VncSession) :
    Response (Option VncSession) Attempt :=
  match session, payload with
  | none, _ => { data := none }
  | some session, some _ => { data := some session }
  | some _, none => { data := none, disconnects := true }

def vncGateway : Gateway (Option VncSession) Attempt VncSession VncHandshake
    (Option (List UInt8)) Callback where
  fresh := none
  register _ session _ := some session
  accept := initSession
  receive := handleData
  handle := Attempt.handle settings

end Handlers

end CloudVM.Vnc
