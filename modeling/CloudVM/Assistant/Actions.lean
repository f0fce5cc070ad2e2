import CloudVM.Assistant.Model
import CloudVM.Framework.Run

/-!
# What the assistant executes

A run is any sequence of chat and confirmation calls. Whoever presents a token that verifies as a
confirmation got it as a reply, or it is a token for something else that names no VM. Then each
request to the VM service is the proposal of an earlier reply to the same user.
-/

namespace CloudVM.Assistant

open Access Text

section Specs

variable {Token : Type} {S : AiService Token}

/-- What passes is a UUID, one of the three actions, and the user. -/
theorem validateStructuredAction_ok {vmId action userId : Option String} {expected : String}
    (h : validateStructuredAction vmId action userId expected = .ok ()) :
    isUuid (vmId.getD "undefined") = true ∧ (∃ a : SafeAction, action = some a.name) ∧
      userId = some expected := by
  unfold validateStructuredAction at h
  split at h
  · cases h
  · split at h
    · cases h
    · split at h
      · cases h
      · rename_i hid haction huser
        refine ⟨by simpa using hid, ?_, by simpa using huser⟩
        simp only [List.map_cons, List.map_nil, List.contains_cons, List.contains_nil,
          Bool.or_false, Bool.not_eq_true', Bool.not_eq_false, Bool.or_eq_true, beq_iff_eq] at haction
        rcases haction with rfl | rfl | rfl
        · exact ⟨.start, rfl⟩
        · exact ⟨.stop, rfl⟩
        · exact ⟨.restart, rfl⟩

theorem findTarget_mem {message : String} {vms : List VmContextItem} {vm : VmContextItem}
    (h : findTarget S message vms = some vm) : vm ∈ vms := by
  simp only [findTarget] at h
  rcases Option.or_eq_some_iff.mp h with h | ⟨-, h⟩
  · obtain ⟨id, -, h⟩ := Option.bind_eq_some_iff.mp h
    exact List.mem_of_find?_eq_some h
  · exact List.mem_of_find?_eq_some h

theorem detectPendingAction_spec {message : String} {user : CurrentUser}
    {vms : List VmContextItem} {now : ℕ} {p : PendingAction Token}
    (h : detectPendingAction S message user vms now = .ok (some p)) :
    (∃ vm ∈ vms, vm.id = p.vmId) ∧ isUuid p.vmId = true ∧
      p.confirmationToken = S.sign (confirmationPayload user p.vmId p.vmName p.action)
        S.actionConfirmSecret (now + 180) := by
  unfold detectPendingAction at h
  split at h
  · cases h
  · rename_i action _
    split at h
    · cases h
    · rename_i vm hvm
      split at h
      · cases h
      · rename_i token htoken
        obtain ⟨_, hvalid, hp⟩ := bind_ok h
        obtain rfl := Option.some.inj (Except.ok.inj hp)
        unfold createActionConfirmationToken at htoken
        split at htoken
        · cases htoken
        · obtain ⟨hid, -, -⟩ := validateStructuredAction_ok hvalid
          exact ⟨⟨vm, findTarget_mem hvm, rfl⟩, hid, (Option.some.inj htoken).symm⟩

/-- The list of VMs a chat call of the user works with. -/
def fetchedVms (S : AiService Token) (user : CurrentUser) (now : ℕ) (env : ChatSurroundings Token) :
    List VmContextItem :=
  match fetchAppContext S user now env.services with
  | .ok context => context.vms
  | .error _ => []

theorem chat_spec {user : CurrentUser} {message : String} {now : ℕ} {env : ChatSurroundings Token}
    {p : PendingAction Token} (h : chat S user message now env = .ok (some p)) :
    (∃ vm ∈ fetchedVms S user now env, vm.id = p.vmId) ∧ isUuid p.vmId = true ∧
      p.confirmationToken = S.sign (confirmationPayload user p.vmId p.vmName p.action)
        S.actionConfirmSecret (now + 180) := by
  unfold chat at h
  obtain ⟨-, -, h⟩ := bind_ok h
  obtain ⟨context, hcontext, h⟩ := bind_ok h
  obtain ⟨pending, hpending, h⟩ := bind_ok h
  obtain ⟨-, -, h⟩ := bind_ok h
  cases pending with
  | none =>
    obtain ⟨-, -, h⟩ := bind_ok h
    obtain ⟨-, -, h⟩ := bind_ok h
    cases h
  | some q =>
    obtain ⟨-, -, h⟩ := bind_ok h
    obtain rfl := Option.some.inj (Except.ok.inj h)
    have hvms : fetchedVms S user now env = context.vms := by simp only [fetchedVms, hcontext]
    rw [hvms]
    exact detectPendingAction_spec hpending

/-- What is sent is what a verified token of the user says. -/
theorem actionRequest_spec {user : CurrentUser} {token : Token} {now : ℕ} {payload : JwtPayload}
    {r : ActionRequest Token} (h : actionRequest S user token now = .ok (payload, r)) :
    S.verify token S.actionConfirmSecret now = some payload ∧ payload.sub = some user.userId ∧
      isUuid (payload.vmId.getD "undefined") = true ∧
      r.path = "/vms/" ++ payload.vmId.getD "undefined" ++ "/action" ∧ r.action = payload.action := by
  unfold actionRequest at h
  split at h
  · cases h
  · split at h
    · cases h
    · rename_i payload' hverify
      split at h
      · cases h
      · rename_i hsub
        obtain ⟨_, hvalid, h⟩ := bind_ok h
        obtain ⟨_, -, h⟩ := bind_ok h
        obtain ⟨rfl, rfl⟩ := Prod.mk.inj (Except.ok.inj h)
        exact ⟨hverify, by simpa using hsub, (validateStructuredAction_ok hvalid).1, rfl, rfl⟩

end Specs

section Runs

variable {Token : Type}

/-- A reply to a user with a pending action, with the list of VMs of that call, or a request to the
VM service on behalf of a user. -/
inductive Entry (Token : Type) where
  | proposed (userId : String) (action : PendingAction Token) (vms : List VmContextItem)
  | posted (userId : String) (request : ActionRequest Token)
deriving DecidableEq

inductive Call (Token : Type) where
  | chat (user : CurrentUser) (message : String) (now : ℕ) (env : ChatSurroundings Token)
  | confirm (user : CurrentUser) (token : Token) (now : ℕ)

def Call.entries (S : AiService Token) : Call Token → List (Entry Token)
  | .chat user message now env =>
      match Assistant.chat S user message now env with
      | .ok (some p) => [.proposed user.userId p (fetchedVms S user now env)]
      | _ => []
  | .confirm user token now =>
      match actionRequest S user token now with
      | .ok (_, r) => [.posted user.userId r]
      | .error _ => []

/-- Tokens are not forged: one that verifies as a confirmation was in a reply, or it is signed for
something else and names no VM. -/
def Call.Unforged (S : AiService Token) (log : List (Entry Token)) : Call Token → Prop
  | .chat _ _ _ _ => True
  | .confirm _ token now => ∀ payload, S.verify token S.actionConfirmSecret now = some payload →
      (∃ userId p vms, .proposed userId p vms ∈ log ∧ p.confirmationToken = token) ∨
        payload.vmId = none

def AssistantStep (S : AiService Token) (log : List (Entry Token)) (call : Call Token)
    (log' : List (Entry Token)) : Prop :=
  call.Unforged S log ∧ log' = log ++ call.entries S

/-- Each proposal is signed for its user and names a VM of its list. -/
def Genuine (S : AiService Token) (log : List (Entry Token)) : Prop :=
  ∀ userId p vms, .proposed userId p vms ∈ log →
    (∃ vm ∈ vms, vm.id = p.vmId) ∧ isUuid p.vmId = true ∧
    ∃ user : CurrentUser, user.userId = userId ∧ ∃ expiresAt,
      p.confirmationToken = S.sign (confirmationPayload user p.vmId p.vmName p.action)
        S.actionConfirmSecret expiresAt

/-- The request is that of a proposal to the same user in the log. -/
def Proposed (log : List (Entry Token)) (userId : String) (r : ActionRequest Token) : Prop :=
  ∃ p vms, .proposed userId p vms ∈ log ∧ (∃ vm ∈ vms, vm.id = p.vmId) ∧
    isUuid p.vmId = true ∧ r.path = "/vms/" ++ p.vmId ++ "/action" ∧
    r.action = some p.action.name

def Backed (log : List (Entry Token)) : Prop :=
  ∀ before after userId r, log = before ++ .posted userId r :: after → Proposed before userId r

variable {S : AiService Token} {log log' : List (Entry Token)} {call : Call Token}

theorem genuine_step (hg : Genuine S log) (h : AssistantStep S log call log') :
    Genuine S log' := by
  obtain ⟨-, rfl⟩ := h
  intro userId p vms hm
  rcases List.mem_append.mp hm with hm | hm
  · exact hg userId p vms hm
  · cases call with
    | chat user message now env =>
      simp only [Call.entries] at hm
      split at hm
      · rename_i q hq
        obtain ⟨rfl, rfl, rfl⟩ : userId = user.userId ∧ p = q ∧ vms = fetchedVms S user now env := by
          simpa using hm
        obtain ⟨hvm, hid, htoken⟩ := chat_spec hq
        exact ⟨hvm, hid, user, rfl, _, htoken⟩
      · cases hm
    | confirm user token now =>
      simp only [Call.entries] at hm
      split at hm <;> simp at hm

theorem confirm_proposed (hS : S.Sealed) (hg : Genuine S log) {user : CurrentUser} {token : Token}
    {now : ℕ} (hu : (Call.confirm user token now).Unforged S log) {payload : JwtPayload}
    {r : ActionRequest Token} (h : actionRequest S user token now = .ok (payload, r)) :
    Proposed log user.userId r := by
  obtain ⟨hverify, hsub, hid, hpath, haction⟩ := actionRequest_spec h
  rcases hu payload hverify with ⟨userId, p, vms, hm, rfl⟩ | hnone
  · obtain ⟨hvm, hpid, owner, rfl, expiresAt, htoken⟩ := hg userId p vms hm
    have hpayload : payload = confirmationPayload owner p.vmId p.vmName p.action := by
      rw [htoken] at hverify
      exact hS _ _ _ _ _ _ hverify
    subst hpayload
    have howner : owner.userId = user.userId := Option.some.inj hsub
    rw [howner] at hm
    exact ⟨p, vms, hm, hvm, hpid, hpath, haction⟩
  · have hundefined : isUuid "undefined" = false := by decide
    rw [hnone, Option.getD_none, hundefined] at hid
    cases hid

theorem backed_step (hS : S.Sealed) (hg : Genuine S log) (hb : Backed log)
    (h : AssistantStep S log call log') : Backed log' := by
  obtain ⟨hu, rfl⟩ := h
  intro before after userId r hsplit
  rcases List.append_eq_append_iff.mp hsplit with ⟨more, hbefore, hentries⟩ | ⟨more, hlog, hrest⟩
  · -- the request is new
    cases call with
    | chat user message now env =>
      simp only [Call.entries] at hentries
      split at hentries
      · cases more <;> simp at hentries
      · simp at hentries
    | confirm user token now =>
      simp only [Call.entries] at hentries
      split at hentries
      · rename_i payload r' hr
        obtain ⟨rfl, rfl, rfl⟩ : more = [] ∧ userId = user.userId ∧ r = r' := by
          cases more with
          | nil => simp_all
          | cons e more => simp at hentries
        rw [hbefore, List.append_nil]
        exact confirm_proposed hS hg hu hr
      · simp at hentries
  · cases more with
    | nil =>
      rw [List.append_nil] at hlog
      subst hlog
      have hnew : call.entries S = .posted userId r :: after := by simpa using hrest.symm
      cases call with
      | chat user message now env =>
        simp only [Call.entries] at hnew
        split at hnew <;> simp at hnew
      | confirm user token now =>
        simp only [Call.entries] at hnew
        split at hnew
        · rename_i payload r' hr
          obtain ⟨⟨rfl, rfl⟩, -⟩ : (user.userId = userId ∧ r' = r) ∧ [] = after := by
            simpa using hnew
          exact confirm_proposed hS hg hu hr
        · simp at hnew
    | cons e more =>
      obtain ⟨rfl, hmore⟩ : Entry.posted userId r = e ∧ after = more ++ call.entries S := by
        simpa using hrest
      exact hb before more userId r hlog

/-- **Only proposals are executed.** Every request that a run sends to the VM service on behalf of
a user follows a reply to that user whose pending action it is. -/
theorem executes_only_proposals (S : AiService Token) (hS : S.Sealed)
    {trace : List (Call Token × List (Entry Token))} {log : List (Entry Token)}
    (h : Run (AssistantStep S) [] trace log) (before after : List (Entry Token)) (userId : String)
    (r : ActionRequest Token) (hlog : log = before ++ .posted userId r :: after) :
    ∃ p vms, .proposed userId p vms ∈ before ∧ (∃ vm ∈ vms, vm.id = p.vmId) ∧
      isUuid p.vmId = true ∧ r.path = "/vms/" ++ p.vmId ++ "/action" ∧
      r.action = some p.action.name := by
  have hinv : Genuine S log ∧ Backed log := by
    apply h.invariant (J := fun log => Genuine S log ∧ Backed log)
    · constructor
      · intro userId p vms hm
        cases hm
      · intro before after userId r hsplit
        simp at hsplit
    · intro log call log' hlog hs
      exact ⟨genuine_step hlog.1 hs, backed_step hS hlog.1 hlog.2 hs⟩
  exact hinv.2 before after userId r hlog

/-- Tokens in the open: what is signed, the secret and the expiry. -/
def plainService : AiService (JwtPayload × String × ℕ) where
  actionConfirmSecret := "confirm"
  jwtSecret := "secret"
  toLowerCase s := String.ofList (s.toList.map Char.toLower)
  sign payload secret expiresAt := (payload, secret, expiresAt)
  verify token secret now := if token.2.1 = secret ∧ now < token.2.2 then some token.1 else none

theorem plainService_sealed : plainService.Sealed := by
  intro payload secret expiresAt secret' now payload' h
  simp only [plainService, Option.ite_none_right_eq_some, Option.some.injEq] at h
  exact h.2.symm

/-- A VM is started on request. -/
theorem executes_only_proposals_start :
    ∃ (trace : _) (log : List (Entry (JwtPayload × String × ℕ))) (proposal : _) (r : _),
      Run (AssistantStep plainService) [] trace log ∧ log = [proposal] ++ .posted "u" r :: [] ∧
      ∃ p vms, .proposed "u" p vms ∈ [proposal] ∧ (∃ vm ∈ vms, vm.id = p.vmId) ∧
        isUuid p.vmId = true ∧ r.path = "/vms/" ++ p.vmId ++ "/action" ∧
        r.action = some p.action.name := by
  let user : CurrentUser := ⟨"u", "u@example.com", "USER"⟩
  let vms : List VmContextItem := [⟨"11111111-1111-4111-8111-111111111111", "web", "STOPPED"⟩]
  let env : ChatSurroundings (JwtPayload × String × ℕ) :=
    ⟨.ok "c", fun _ => ⟨none, some (some vms), none⟩, .ok (), .ok (), .ok ()⟩
  let token : JwtPayload × String × ℕ :=
    (confirmationPayload user "11111111-1111-4111-8111-111111111111" "web" .start, "confirm", 180)
  let internal : JwtPayload × String × ℕ :=
    ({ sub := some "u", email := some "u@example.com", role := some "USER" }, "secret", 360)
  let proposal : Entry (JwtPayload × String × ℕ) :=
    .proposed "u" ⟨.start, "11111111-1111-4111-8111-111111111111", "web", token⟩ vms
  have hchat : [] ++ (Call.chat user "Start web" 0 env).entries plainService = [proposal] := by
    decide +kernel
  have hconfirm : [proposal] ++ (Call.confirm user token 60).entries plainService =
      [proposal] ++ .posted "u"
        ⟨"/vms/11111111-1111-4111-8111-111111111111/action", internal, some "start"⟩ :: [] := by
    decide +kernel
  have hfirst : AssistantStep plainService [] (.chat user "Start web" 0 env) [proposal] :=
    ⟨trivial, hchat.symm⟩
  have hunforged : (Call.confirm user token 60).Unforged plainService [proposal] := by
    intro payload _
    exact .inl ⟨"u", ⟨.start, "11111111-1111-4111-8111-111111111111", "web", token⟩, vms,
      List.mem_singleton.mpr rfl, rfl⟩
  have hrun := (Run.single hfirst).snoc ⟨hunforged, hconfirm.symm⟩
  exact ⟨_, _, proposal, _, hrun, rfl,
    executes_only_proposals plainService plainService_sealed hrun [proposal] [] "u" _ rfl⟩

end Runs

end CloudVM.Assistant
