import CloudVM.Billing.Webhook

/-!
# The status of a payment

Completed and expired sessions and confirmations may arrive in any order and be handled together.
Marking as paid passes over settled rows and expiry touches pending rows only, so what a payment
ends as depends on which of the two updates reached it and not on their order.
-/

namespace CloudVM

open Process PaymentService Webhook

namespace Confluence

section Requests

variable (env : PaymentEnv)

def pays (q : PaymentRequest) : Option String :=
  match q with
  | .confirm _ sessionId => some sessionId
  | q => (q.event env).bind fun e => if e.type = .sessionCompleted then some e.session else none

/-- The session that a request says has expired. -/
def expires (q : PaymentRequest) : Option String :=
  (q.event env).bind fun e => if e.type = .sessionExpired then some e.session else none

/-- The payments that are marked were found by the session of the request, and only an expired
session is marked as such. -/
def Marks (q : PaymentRequest) (log : PaymentLog) : PaymentCall → Prop
  | .markPaid ids => ∃ sid rows, pays env q = some sid ∧ Found sid rows log ∧
      ids = rows.map PaymentRow.id
  | .markExpired sid => expires env q = some sid
  | _ => True

def Plain : PaymentCall → Prop
  | .markPaid _ => False
  | .markExpired _ => False
  | _ => True

variable {env} {q : PaymentRequest}

theorem marks_plain {log : PaymentLog} {c : PaymentCall} (h : Plain c) : Marks env q log c := by
  cases c <;> trivial

private theorem plain_fetched {α : Type} (m : String) (r : Except Failure α) :
    (fetched m r).Only Plain := by
  cases r <;> trivial

private theorem plain_checkUserService : (checkUserService env).Only Plain := by
  unfold checkUserService
  split
  · trivial
  · split <;> trivial

private theorem plain_syncQuotaForPlan (payment userId : String)
    (planId : Option SubscriptionPlanId) : (syncQuotaForPlan env payment userId planId).Only Plain := by
  cases planId with
  | none => trivial
  | some p =>
    apply only_bind plain_checkUserService
    intro _
    exact ⟨trivial, plain_fetched _⟩

private theorem plain_applyPlans (rows : List PaymentRow) : (applyPlans env rows).Only Plain := by
  induction rows with
  | nil => trivial
  | cons row rest ih =>
    apply only_bind (plain_syncQuotaForPlan _ _ _)
    intro _
    apply only_bind ih
    intro applied
    trivial

private theorem plain_snapshot (userId : String) :
    (getSubscriptionAccessSnapshot env userId).Only Plain := by
  apply only_bind plain_checkUserService
  intro _
  exact ⟨trivial, plain_fetched _⟩

private theorem plain_enforce (userId : String) (requested : ManagedPlanId)
    (catalog : ManagedCatalog) : (enforcePlanPurchaseRules env userId requested catalog).Only Plain := by
  apply only_bind (plain_snapshot userId)
  intro snapshot
  split
  · trivial
  · trivial
  · split
    · trivial
    · split <;> trivial

private theorem plain_checkout (userId : String) (role : Role) (planId : ManagedPlanId) :
    (createCheckoutSession env userId role planId).Only Plain := by
  unfold createCheckoutSession createCheckoutSessionWith
  split
  · trivial
  · split
    · trivial
    · refine ⟨trivial, fun r => ?_⟩
      apply only_bind (only_ofExcept r)
      intro catalog
      have hstudent : (requireStudent env userId planId).Only Plain := by
        unfold requireStudent
        split
        · apply only_bind
          · apply only_bind plain_checkUserService
            intro _
            exact ⟨trivial, plain_fetched _⟩
          · intro verified
            split <;> trivial
        · trivial
      apply only_bind hstudent
      intro _
      apply only_bind (plain_enforce userId planId catalog)
      intro _
      apply only_bind (plain_snapshot userId)
      intro snapshot
      split
      · trivial
      · refine ⟨trivial, fun r => ?_⟩
        apply only_bind (only_ofExcept r)
        intro session
        refine ⟨trivial, fun r => ?_⟩
        apply only_bind (only_ofExcept r)
        intro _
        trivial

private theorem wp_of_plain {α : Type} {p : PaymentProcess α} (h : p.Only Plain) (log : PaymentLog) :
    p.Wp (Marks env q) (logged fun _ _ => True) (fun _ _ => True) log :=
  h.keeps (J := fun _ => True) (fun _ _ hc => marks_plain hc) (fun _ _ _ _ _ _ _ => trivial) log
    trivial

private theorem markStripeSessionAsPaid_marks {sessionId : String} (hq : pays env q = some sessionId)
    (expected : Option String) (log : PaymentLog) :
    (markStripeSessionAsPaid env sessionId expected).Wp (Marks env q) (logged fun _ _ => True)
      (fun _ _ => True) log := by
  refine (wp_bind _ _ _ _).mpr ⟨trivial, fun r log₁ h₁ => ?_⟩
  obtain ⟨-, rfl⟩ := h₁
  rw [wp_ofExcept]
  cases r with
  | error e => trivial
  | ok rows =>
    have hfound : Found sessionId rows
        (log ++ [⟨PaymentCall.findStripePayments sessionId, .ok rows⟩]) := by simp [Found]
    simp only [post_ok]
    split
    · trivial
    · split
      · trivial
      · refine (wp_bind _ _ _ _).mpr ⟨⟨sessionId, rows, hq, hfound, rfl⟩, fun r log₂ h₂ => ?_⟩
        rw [wp_ofExcept]
        cases r with
        | error e => trivial
        | ok u =>
          apply wp_of_plain
          apply only_bind (plain_applyPlans rows)
          intro applied
          trivial

private theorem handleEvent_marks {e : StripeEvent} (hq : q.event env = some e)
    (hc : ∀ userId sid, q ≠ .confirm userId sid) :
    (handleEvent env e).Wp (Marks env q) (logged fun _ _ => True) (fun _ _ => True) [] := by
  refine ⟨trivial, fun r log h => ?_⟩
  cases r with
  | error f =>
    dsimp only
    split <;> trivial
  | ok u =>
    unfold processEvent
    split
    · rename_i htype
      have hpays : pays env q = some e.session := by
        cases q with
        | confirm userId sid => exact absurd rfl (hc userId sid)
        | checkout userId role planId => cases hq
        | webhook rawBody signature => simp [pays, hq, htype]
      apply (wp_bind _ _ _ _).mpr
      apply (markStripeSessionAsPaid_marks hpays none log).mono
      intro out log' _
      cases out <;> trivial
    · rename_i htype
      have hexpires : expires env q = some e.session := by simp [expires, hq, htype]
      apply (wp_bind _ _ _ _).mpr
      refine ⟨hexpires, fun r log' _ => ?_⟩
      rw [wp_ofExcept]
      cases r <;> trivial
    · trivial

private theorem confirm_marks (userId sessionId : String) (log : PaymentLog) :
    (confirmCheckoutSession env userId sessionId).Wp (Marks env (.confirm userId sessionId))
      (logged fun _ _ => True) (fun _ _ => True) log := by
  unfold confirmCheckoutSession
  split
  · trivial
  · split
    · trivial
    · refine ⟨trivial, fun r log' _ => (wp_bind _ _ _ _).mpr ?_⟩
      rw [wp_ofExcept]
      cases r with
      | error e => trivial
      | ok session =>
        simp only [post_ok]
        cases session with
        | none => trivial
        | some session =>
          simp only [confirmRetrieved]
          split
          · trivial
          · split
            · trivial
            · apply (wp_bind _ _ _ _).mpr
              apply (markStripeSessionAsPaid_marks rfl (some userId) log').mono
              intro out log'' _
              cases out <;> trivial

private theorem webhook_marks (rawBody : String) (signature : Option String) :
    (handleWebhook env rawBody signature).Wp (Marks env (.webhook rawBody signature))
      (logged fun _ _ => True) (fun _ _ => True) [] := by
  cases he : (PaymentRequest.webhook rawBody signature).event env with
  | some e =>
    have hhandle := PaymentRequest.handle_of_event he
    simp only [PaymentRequest.handle] at hhandle
    rw [hhandle]
    exact handleEvent_marks he (by simp)
  | none =>
    unfold handleWebhook
    split
    · trivial
    · rename_i hconfigured
      split
      · trivial
      · rename_i secret hsecret
        split
        · trivial
        · rename_i value hvalue
          split
          · trivial
          · rename_i event hevent
            have hsome : (PaymentRequest.webhook rawBody signature).event env = some event := by
              simp only [PaymentRequest.event]
              rw [if_pos (by simpa using hconfigured)]
              simp [hsecret, hvalue, hevent]
            rw [he] at hsome
            cases hsome

def contract (env : PaymentEnv) : (paymentServer env).Contract where
  fits := fun _ _ => True
  permits := Marks env
  returns := fun _ _ _ => True
  sound := fun _ _ _ _ _ _ _ => trivial
  holds := by
    intro q
    have hall : (q.handle env).Wp (Marks env q) (logged fun _ _ => True) (fun _ _ => True) [] := by
      cases q with
      | checkout userId role planId => exact wp_of_plain (plain_checkout userId role planId) []
      | confirm userId sessionId => exact confirm_marks userId sessionId []
      | webhook rawBody signature => exact webhook_marks rawBody signature
    apply hall.mono
    intro out log _
    cases out <;> trivial

end Requests

section Rows

variable {json : PlanCatalogJson} {s s' : PaymentStore}

/-- What a call that is carried out makes of the status of a row. -/
def statusAfter (row : PaymentRow) : PaymentCall → PaymentStatus
  | .markPaid ids => if ids.contains row.id && !row.status.settled then .paid else row.status
  | .markExpired sid =>
      if row.ofSession sid && decide (row.status = .pending) then .expired else row.status
  | _ => row.status

private theorem row_withSubs {subs : SubscriptionDb} {row row' : PaymentRow}
    (hrow : row ∈ s.payments.rows) (hrow' : row' ∈ (s.withSubs subs).payments.rows)
    (hid : row'.id = row.id) : row' = row :=
  s.payments.eq_of_key_eq ((Table.mem_erase _ _ _).mp hrow').1 hrow hid

private theorem row_setStatus {p : PaymentRow → Bool} {status : PaymentStatus}
    {row row' : PaymentRow} (hrow : row ∈ s.payments.rows)
    (hrow' : row' ∈ (s.setStatus p status).payments.rows) (hid : row'.id = row.id) :
    row' = if p row then { row with status } else row := by
  obtain ⟨old, hold, rfl⟩ := PaymentStore.mem_setStatus.mp hrow'
  have hold' : old.id = row.id := by
    split at hid <;> exact hid
  rw [s.payments.eq_of_key_eq hold hrow hold']

theorem row_of_serve {c : PaymentCall} {r : c.Answer} {row row' : PaymentRow}
    (h : c.serve json s r s') (hrow : row ∈ s.payments.rows) (hrow' : row' ∈ s'.payments.rows)
    (hid : row'.id = row.id) : row' = { row with status := statusAfter row c } := by
  have hsame : ∀ {subs : SubscriptionDb}, row' ∈ (s.withSubs subs).payments.rows →
      row' = { row with status := row.status } := fun hm => row_withSubs hrow hm hid
  have hunchanged : row' ∈ s.payments.rows → row' = { row with status := row.status } :=
    fun hm => s.payments.eq_of_key_eq hm hrow hid
  cases c with
  | getPlanCatalog =>
    simp only [PaymentCall.serve] at h
    split at h
    · obtain ⟨-, rfl⟩ := h
      exact hunchanged hrow'
    · obtain ⟨out, t, ⟨subs, -, rfl⟩, -, rfl⟩ := h
      exact hsame hrow'
  | studentVerification userId =>
    obtain ⟨-, rfl⟩ := h
    exact hunchanged hrow'
  | subscriptionAccess userId =>
    obtain ⟨out, ⟨subs, -, rfl⟩, -⟩ := h
    exact hsame hrow'
  | activate payment userId planId =>
    obtain ⟨out, ⟨subs, -, rfl⟩, -⟩ := h
    exact hsame hrow'
  | createSession data =>
    obtain ⟨-, rfl⟩ := h
    exact hunchanged hrow'
  | retrieveSession sessionId =>
    obtain ⟨-, rfl⟩ := h
    exact hunchanged hrow'
  | createEvent eventId type =>
    rcases h with ⟨hnew, -, rfl⟩ | ⟨-, -, rfl⟩
    · exact hunchanged hrow'
    · exact hunchanged hrow'
  | findStripePayments sessionId =>
    obtain ⟨-, rfl⟩ := h
    exact hunchanged hrow'
  | markPaid ids =>
    obtain ⟨-, rfl⟩ := h
    rw [row_setStatus hrow hrow' hid]
    simp only [statusAfter]
    split <;> rfl
  | markExpired sid =>
    obtain ⟨-, rfl⟩ := h
    rw [row_setStatus hrow hrow' hid]
    simp only [statusAfter]
    split <;> rfl
  | createPayment data =>
    rcases h with ⟨id, hnew, howner, -, rfl⟩ | ⟨-, -, rfl⟩
    · rcases List.mem_append.mp hrow' with hm | hm
      · exact hunchanged hm
      · obtain rfl := List.mem_singleton.mp hm
        exact absurd (List.mem_map.mpr ⟨row, hrow, hid.symm⟩) hnew
    · exact hunchanged hrow'

theorem row_of_changes {row row' : PaymentRow} (h : s.Changes json s')
    (hrow : row ∈ s.payments.rows) (hrow' : row' ∈ s'.payments.rows) (hid : row'.id = row.id) :
    row' = row := by
  obtain ⟨q, out, t, ⟨subs, -, rfl⟩, rfl | rfl | rfl⟩ := h
  · exact row_withSubs hrow hrow' hid
  · exact row_withSubs hrow hrow' hid
  · exact row_withSubs hrow hrow' hid

end Rows

section Steps

variable (env : PaymentEnv)

/-- The call of the label was carried out in this step, whatever was reported. -/
def Carried (x : PaymentStage) (l : PaymentLabel) (y : PaymentStage) (c : PaymentCall) : Prop :=
  (∃ i r, l = .act i c r) ∧ ∃ r', c.serve env.json x.state r' y.state

/-- A completed event or a confirmation of a session of the row reaches the update. -/
def Paid (row : PaymentRow) (x : PaymentStage) (l : PaymentLabel) (y : PaymentStage) : Prop :=
  ∃ i ids r task sid, l = .act i (.markPaid ids) r ∧ x.tasks[i]? = some task ∧
    pays env task.request = some sid ∧ row.ofSession sid = true ∧ Carried env x l y (.markPaid ids)

/-- An expired event of a session of the row reaches the update. -/
def Expired (row : PaymentRow) (x : PaymentStage) (l : PaymentLabel) (y : PaymentStage) : Prop :=
  ∃ i sid r task, l = .act i (.markExpired sid) r ∧ x.tasks[i]? = some task ∧
    expires env task.request = some sid ∧ row.ofSession sid = true ∧
    Carried env x l y (.markExpired sid)

/-- A step after which the payment is still there. -/
def KeptStep (id : String) (x : PaymentStage) (l : PaymentLabel) (y : PaymentStage) : Prop :=
  (paymentServer env).Step x l y ∧ ∃ row ∈ y.state.payments.rows, row.id = id

variable {env} {x y : PaymentStage} {l : PaymentLabel} {row row' : PaymentRow}

theorem row_of_step (h : (paymentServer env).Step x l y) (hrow : row ∈ x.state.payments.rows)
    (hrow' : row' ∈ y.state.payments.rows) (hid : row'.id = row.id) :
    (∃ c, Carried env x l y c ∧ row' = { row with status := statusAfter row c }) ∨
      ((∀ c, ¬ Carried env x l y c) ∧ row' = row) := by
  by_cases hc : ∃ c, Carried env x l y c
  · obtain ⟨c, hl, r', hr⟩ := hc
    exact .inl ⟨c, ⟨hl, r', hr⟩, row_of_serve hr hrow hrow' hid⟩
  · refine .inr ⟨fun c hcarried => hc ⟨c, hcarried⟩, ?_⟩
    cases h with
    | begin q => exact Table.eq_of_key_eq _ hrow' hrow hid
    | act ht he =>
      rcases PaymentCall.carried_of_mayServe he with rfl | ⟨r', hr⟩
      · exact Table.eq_of_key_eq _ hrow' hrow hid
      · exact absurd ⟨_, ⟨_, _, rfl⟩, r', hr⟩ hc
    | crash e ht hl => exact Table.eq_of_key_eq _ hrow' hrow hid
    | change hchange => exact row_of_changes hchange hrow hrow' hid

theorem statusAfter_settled (h : row.status.settled = true) (c : PaymentCall) :
    statusAfter row c = row.status := by
  cases c with
  | markPaid ids => simp [statusAfter, h]
  | markExpired sid =>
    have hne : row.status ≠ .pending := by
      intro hp
      rw [hp] at h
      cases h
    simp [statusAfter, hne]
  | _ => rfl

theorem settled_step (h : (paymentServer env).Step x l y) (hrow : row ∈ x.state.payments.rows)
    (hs : row.status.settled = true) (hrow' : row' ∈ y.state.payments.rows)
    (hid : row'.id = row.id) : row' = row := by
  rcases row_of_step h hrow hrow' hid with ⟨c, -, hc⟩ | ⟨-, hc⟩
  · rw [hc, statusAfter_settled hs]
  · exact hc

end Steps

section Outcome

open Classical in
/-- What a status ends as if a payment and an expiry reached the row or not. -/
noncomputable def outcome (status : PaymentStatus) (paid expired : Prop) : PaymentStatus :=
  if status.settled then status
  else if paid then .paid
  else if status = .pending ∧ expired then .expired
  else status

variable {status : PaymentStatus} {p p' e e' : Prop}

/-- The order of payments and expiries does not matter. -/
theorem outcome_outcome : outcome (outcome status p e) p' e' = outcome status (p ∨ p') (e ∨ e') := by
  by_cases hp : p <;> by_cases hp' : p' <;> by_cases he : e <;> by_cases he' : e' <;>
    cases status <;> simp [outcome, PaymentStatus.settled, hp, hp', he, he']

theorem outcome_false : outcome status False False = status := by
  cases status <;> simp [outcome, PaymentStatus.settled]

end Outcome

section Runs

variable {env : PaymentEnv} {x y : PaymentStage} {l : PaymentLabel} {row row' : PaymentRow}

/-- Every task that looked payments up by a session of the row has found it, and no other has. -/
structure Tracked (env : PaymentEnv) (row : PaymentRow) (x : PaymentStage) : Prop where
  kept : ∀ task ∈ x.tasks, (contract env).Kept task
  present : row ∈ x.state.payments.rows
  found : ∀ task ∈ x.tasks, ∀ sid rows, Found sid rows task.log →
    (row.id ∈ rows.map PaymentRow.id ↔ row.ofSession sid = true)

private theorem found_iff {s : PaymentStore} (hrow : row ∈ s.payments.rows) {sid : String}
    {rows : List PaymentRow} (h : rows.Perm (s.sessionPayments sid)) :
    row.id ∈ rows.map PaymentRow.id ↔ row.ofSession sid = true := by
  constructor
  · intro hm
    obtain ⟨other, hother, hid⟩ := List.mem_map.mp hm
    obtain ⟨hmem, hof⟩ := List.mem_filter.mp (h.mem_iff.mp hother)
    rwa [s.payments.eq_of_key_eq hmem hrow hid] at hof
  · intro hof
    exact List.mem_map_of_mem (h.mem_iff.mpr (List.mem_filter.mpr ⟨hrow, hof⟩))

private theorem tracked_found (hx : Tracked env row x) (h : (paymentServer env).Step x l y) :
    ∀ task ∈ y.tasks, ∀ sid rows, Found sid rows task.log →
      (row.id ∈ rows.map PaymentRow.id ↔ row.ofSession sid = true) := by
  intro task hm sid rows hf
  cases h with
  | begin q =>
    rcases List.mem_append.mp hm with hm | hm
    · exact hx.found task hm sid rows hf
    · obtain rfl := List.mem_singleton.mp hm
      simp [Found] at hf
  | act ht he =>
    rcases List.mem_or_eq_of_mem_set hm with hm | rfl
    · exact hx.found task hm sid rows hf
    · rcases List.mem_append.mp hf with hf | hf
      · exact hx.found _ (List.mem_of_getElem? ht) sid rows hf
      · obtain ⟨rfl, hr⟩ := Sigma.mk.inj (List.mem_singleton.mp hf)
        obtain rfl := eq_of_heq hr
        exact found_iff hx.present (found_of_mayServe he).2
  | crash e ht hl =>
    rcases List.mem_or_eq_of_mem_set hm with hm | rfl
    · exact hx.found task hm sid rows hf
    · exact hx.found _ (List.mem_of_getElem? ht) sid rows hf
  | change hc => exact hx.found task hm sid rows hf

private theorem marks_of_step (hx : Tracked env row x) (h : (paymentServer env).Step x l y)
    {c : PaymentCall} {i : ℕ} {r : c.Answer} (hl : l = .act i c r) :
    ∃ task ∈ x.tasks, x.tasks[i]? = some task ∧ Marks env task.request task.log c := by
  subst hl
  obtain ⟨q, log, k, ht⟩ := h.act_inv
  have hm := List.mem_of_getElem? ht
  exact ⟨_, hm, ht, (hx.kept _ hm).1⟩

private theorem status_of_step (hx : Tracked env row x) (h : (paymentServer env).Step x l y)
    (hrow' : row' ∈ y.state.payments.rows) (hid : row'.id = row.id) :
    row' = { row with status := outcome row.status (Paid env row x l y) (Expired env row x l y) } := by
  by_cases hs : row.status.settled = true
  · rw [settled_step h hx.present hs hrow' hid]
    simp [outcome, hs]
  · rcases row_of_step h hx.present hrow' hid with ⟨c, ⟨⟨i, r, hl⟩, hserve⟩, rfl⟩ | ⟨hno, hsame⟩
    · obtain ⟨task, hm, ht, hmarks⟩ := marks_of_step hx h hl
      have hcarried : Carried env x l y c := ⟨⟨i, r, hl⟩, hserve⟩
      congr 1
      cases c with
      | markPaid ids =>
        obtain ⟨sid, rows, hpays, hfound, rfl⟩ := hmarks
        have hiff := hx.found task hm sid rows hfound
        have hexpired : ¬ Expired env row x l y := by
          rintro ⟨i', sid', r', task', hl', -⟩
          rw [hl] at hl'
          simp at hl'
        by_cases hof : row.ofSession sid = true
        · have hpaid : Paid env row x l y := ⟨i, _, r, task, sid, hl, ht, hpays, hof, hcarried⟩
          simp [statusAfter, outcome, hs, hpaid, hiff.mpr hof]
        · have hpaid : ¬ Paid env row x l y := by
            rintro ⟨i', ids', r', task', sid', hl', ht', hpays', hof', -⟩
            rw [hl] at hl'
            obtain ⟨rfl, -⟩ : i = i' ∧ _ := by simpa using hl'
            obtain rfl : task = task' := by simpa [ht] using ht'
            rw [hpays] at hpays'
            obtain rfl := Option.some.inj hpays'
            exact hof hof'
          have hnot : row.id ∉ rows.map PaymentRow.id := fun hin => hof (hiff.mp hin)
          simp [statusAfter, outcome, hs, hpaid, hexpired, hnot]
      | markExpired sid =>
        have hpaid : ¬ Paid env row x l y := by
          rintro ⟨i', ids', r', task', sid', hl', -⟩
          rw [hl] at hl'
          simp at hl'
        by_cases hof : row.ofSession sid = true
        · have hexpired : Expired env row x l y := ⟨i, sid, r, task, hl, ht, hmarks, hof, hcarried⟩
          simp [statusAfter, outcome, hs, hpaid, hexpired, hof]
        · have hexpired : ¬ Expired env row x l y := by
            rintro ⟨i', sid', r', task', hl', -, -, hof', -⟩
            rw [hl] at hl'
            simp only [StageLabel.act.injEq, PaymentCall.markExpired.injEq] at hl'
            obtain ⟨rfl, rfl, -⟩ := hl'
            exact hof hof'
          simp [statusAfter, outcome, hs, hpaid, hexpired, hof]
      | _ =>
        have hpaid : ¬ Paid env row x l y := by
          rintro ⟨i', ids', r', task', sid', hl', -⟩
          rw [hl] at hl'
          simp at hl'
        have hexpired : ¬ Expired env row x l y := by
          rintro ⟨i', sid', r', task', hl', -⟩
          rw [hl] at hl'
          simp at hl'
        simp [statusAfter, outcome, hpaid, hexpired]
    · have hpaid : ¬ Paid env row x l y := by
        rintro ⟨i, ids, r, task, sid, -, -, -, -, hcarried⟩
        exact hno _ hcarried
      have hexpired : ¬ Expired env row x l y := by
        rintro ⟨i, sid, r, task, -, -, -, -, hcarried⟩
        exact hno _ hcarried
      rw [hsame]
      simp [outcome, hpaid, hexpired]

private theorem tracked_step (hx : Tracked env row x) (h : KeptStep env row.id x l y) :
    ∃ row', Tracked env row' y ∧ row' = { row with
      status := outcome row.status (Paid env row x l y) (Expired env row x l y) } := by
  obtain ⟨hstep, row', hrow', hid⟩ := h
  have hstatus := status_of_step hx hstep hrow' hid
  have hfound := tracked_found hx hstep
  refine ⟨row', ⟨(contract env).kept_step x l y hx.kept hstep, hrow', ?_⟩, hstatus⟩
  intro task hm sid rows hf
  have hof : row'.ofSession sid = row.ofSession sid := by
    rw [hstatus]
    rfl
  rw [hid, hof]
  exact hfound task hm sid rows hf

theorem status_of_run {trace : List (PaymentLabel × PaymentStage)} (hx : Tracked env row x)
    (h : Run (KeptStep env row.id) x trace y) :
    ∃ row', Tracked env row' y ∧ row' = { row with
      status := outcome row.status (Sometime (Paid env row) x trace)
        (Sometime (Expired env row) x trace) } := by
  induction trace generalizing x row with
  | nil =>
    rw [h.eq_of_nil]
    refine ⟨row, hx, ?_⟩
    simp only [Sometime, outcome_false]
  | cons e rest ih =>
    obtain ⟨l, z⟩ := e
    obtain ⟨hfirst, hrest⟩ := h.uncons
    obtain ⟨row₁, hz, hrow₁⟩ := tracked_step hx hfirst
    have hid : row₁.id = row.id := by rw [hrow₁]
    have hpaid : Paid env row₁ = Paid env row := by rw [hrow₁]; rfl
    have hexpired : Expired env row₁ = Expired env row := by rw [hrow₁]; rfl
    rw [← hid] at hrest
    obtain ⟨row', hy, hrow'⟩ := ih hz hrest
    refine ⟨row', hy, ?_⟩
    rw [hrow', hpaid, hexpired, hrow₁]
    simp only [Sometime, outcome_outcome]

/-- A settled row stays as it is, whatever is under way. -/
theorem settled_of_run {trace : List (PaymentLabel × PaymentStage)}
    (hrow : row ∈ x.state.payments.rows) (hs : row.status.settled = true)
    (h : Run (KeptStep env row.id) x trace y) : row ∈ y.state.payments.rows := by
  apply h.invariant (J := fun z => row ∈ z.state.payments.rows) hrow
  intro t l u ht hstep
  obtain ⟨hstep, row', hrow', hid⟩ := hstep
  rw [← settled_step hstep ht hs hrow' hid]
  exact hrow'

/-- **Confluence.** A payment that is paid or granted never changes its status again. One that is
pending when the first request arrives ends as paid if a completed event or a confirmation of its
session reached the update, as expired if only expired events did, and else as pending. -/
theorem payment_status_confluent (env : PaymentEnv) (row : PaymentRow) :
    (∀ x trace y, Run (KeptStep env row.id) x trace y → row ∈ x.state.payments.rows →
      (row.status = .paid ∨ row.status = .adminGranted) → row ∈ y.state.payments.rows) ∧
    (∀ s trace y, Run (KeptStep env row.id) ⟨s, []⟩ trace y → row ∈ s.payments.rows →
      row.status = .pending → ∃ row' ∈ y.state.payments.rows, row'.id = row.id ∧
        (Sometime (Paid env row) ⟨s, []⟩ trace → row'.status = .paid) ∧
        (¬ Sometime (Paid env row) ⟨s, []⟩ trace → Sometime (Expired env row) ⟨s, []⟩ trace →
          row'.status = .expired) ∧
        (¬ Sometime (Paid env row) ⟨s, []⟩ trace → ¬ Sometime (Expired env row) ⟨s, []⟩ trace →
          row'.status = .pending)) := by
  constructor
  · intro x trace y h hrow hstatus
    apply settled_of_run hrow ?_ h
    rcases hstatus with hstatus | hstatus <;> rw [hstatus] <;> rfl
  · intro s trace y h hrow hpending
    have htracked : Tracked env row ⟨s, []⟩ := ⟨by simp, hrow, by simp⟩
    obtain ⟨row', hy, hrow'⟩ := status_of_run htracked h
    have hstatus : row'.status = outcome .pending (Sometime (Paid env row) ⟨s, []⟩ trace)
        (Sometime (Expired env row) ⟨s, []⟩ trace) := by rw [hrow', hpending]
    refine ⟨row', hy.present, by rw [hrow'], ?_, ?_, ?_⟩
    · intro hp
      simp [hstatus, outcome, PaymentStatus.settled, hp]
    · intro hp he
      simp [hstatus, outcome, PaymentStatus.settled, hp, he]
    · intro hp he
      simp [hstatus, outcome, PaymentStatus.settled, hp, he]

end Runs

section Sample

private def expiring : PaymentEnv :=
  { PaymentEnv.sample with
    constructEvent := fun _ _ _ => some ⟨"evt_2", .sessionExpired, "cs_test_1"⟩ }

private theorem sometime_next {σ ℓ : Type} {step P : σ → ℓ → σ → Prop} {s t : σ} {l : ℓ}
    (h : step s l t) (h' : ∃ trace u, Run step t trace u ∧ Sometime P t trace) :
    ∃ trace u, Run step s trace u ∧ Sometime P s trace := by
  obtain ⟨trace, u, hrun, hp⟩ := h'
  exact ⟨_, u, .head h hrun, .inr hp⟩

private theorem sometime_here {σ ℓ : Type} {step P : σ → ℓ → σ → Prop} {s t : σ} {l : ℓ}
    (h : step s l t) (hp : P s l t) : ∃ trace u, Run step s trace u ∧ Sometime P s trace :=
  ⟨_, t, .single h, .inl hp⟩

private theorem expired_then_paid : ∃ trace y, Run (KeptStep expiring "p1") ⟨PaymentStore.sample, []⟩ trace y ∧
    Sometime (Paid expiring PaymentRow.sample) ⟨PaymentStore.sample, []⟩ trace := by
  apply sometime_next (l := .begin (.webhook "body" (some "v1")))
    ⟨.begin _, PaymentRow.sample, by decide, rfl⟩
  apply sometime_next ⟨.act (I := paymentInterface) (i := 0)
    (c := PaymentCall.createEvent "evt_2" .sessionExpired) (r := .ok ()) rfl
    (.inl (.inl ⟨by decide, rfl, rfl⟩)), PaymentRow.sample, by decide, rfl⟩
  apply sometime_next ⟨.act (I := paymentInterface) (i := 0)
    (c := PaymentCall.markExpired "cs_test_1") (r := .ok ()) rfl (.inl ⟨rfl, rfl⟩),
    { PaymentRow.sample with status := .expired }, by decide, rfl⟩
  apply sometime_next (l := .begin (.confirm "u" "cs_test_1"))
    ⟨.begin _, { PaymentRow.sample with status := .expired }, by decide, rfl⟩
  apply sometime_next ⟨.act (I := paymentInterface) (i := 1)
    (c := PaymentCall.retrieveSession "cs_test_1") (r := .ok (some ⟨some "u", "paid"⟩)) rfl
    (.inl ⟨⟨_, rfl⟩, rfl⟩), { PaymentRow.sample with status := .expired }, by decide, rfl⟩
  apply sometime_next ⟨.act (I := paymentInterface) (i := 1)
    (c := PaymentCall.findStripePayments "cs_test_1")
    (r := .ok [{ PaymentRow.sample with status := .expired }]) rfl
    (.inl ⟨⟨_, by decide, rfl⟩, rfl⟩), { PaymentRow.sample with status := .expired }, by decide, rfl⟩
  apply sometime_here ⟨.act (I := paymentInterface) (i := 1)
    (c := PaymentCall.markPaid ["p1"]) (r := .ok ()) rfl (.inl ⟨rfl, rfl⟩),
    { PaymentRow.sample with status := .paid }, by decide, rfl⟩
  exact ⟨1, ["p1"], .ok (), _, "cs_test_1", rfl, rfl, rfl, by decide,
    ⟨⟨1, .ok (), rfl⟩, .ok (), rfl, rfl⟩⟩

theorem payment_status_confluent_confirmed : ∃ s trace y,
    Run (KeptStep expiring PaymentRow.sample.id) ⟨s, []⟩ trace y ∧
      ∃ row' ∈ y.state.payments.rows, row'.id = PaymentRow.sample.id ∧ row'.status = .paid := by
  obtain ⟨trace, y, h, hpaid⟩ := expired_then_paid
  obtain ⟨row', hrow', hid, hstatus, -⟩ := (payment_status_confluent expiring PaymentRow.sample).2
    PaymentStore.sample trace y h (List.mem_singleton_self PaymentRow.sample) rfl
  exact ⟨PaymentStore.sample, trace, y, h, row', hrow', hid, hstatus hpaid⟩

end Sample

end Confluence

end CloudVM
