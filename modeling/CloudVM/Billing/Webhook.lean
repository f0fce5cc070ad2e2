import CloudVM.Billing.Activation
import CloudVM.Billing.Server

/-!
# Deliveries of a completed checkout

Stripe delivers an event again until a delivery returns normally. The event is recorded before
its payments are marked and their plans activated, so a delivery that fails in between leaves a
record behind, and the next one returns without doing the work. When every refused delivery comes
after the one that did the work, a normal return does settle the session.
-/

namespace CloudVM

open Process PaymentService

namespace Webhook

section Log

def Recorded (e : StripeEvent) (log : PaymentLog) : Prop :=
  (⟨PaymentCall.createEvent e.id e.type, .ok ()⟩ : Event paymentInterface) ∈ log

def Refused (e : StripeEvent) (log : PaymentLog) : Prop :=
  ∃ f, isUniqueViolation f = true ∧
    (⟨PaymentCall.createEvent e.id e.type, .error f⟩ : Event paymentInterface) ∈ log

def Found (sessionId : String) (rows : List PaymentRow) (log : PaymentLog) : Prop :=
  (⟨PaymentCall.findStripePayments sessionId, .ok rows⟩ : Event paymentInterface) ∈ log

def Marked (ids : List String) (log : PaymentLog) : Prop :=
  (⟨PaymentCall.markPaid ids, .ok ()⟩ : Event paymentInterface) ∈ log

/-- The activation made for a payment has succeeded. -/
def Activated (payment userId : String) (planId : SubscriptionPlanId) (log : PaymentLog) : Prop :=
  (⟨PaymentCall.activate payment userId planId, .ok ()⟩ : Event paymentInterface) ∈ log

end Log

/-- Payments are marked only after they were looked up. -/
def Ordered (sessionId : String) (log : PaymentLog) (c : PaymentCall) : Prop :=
  ∀ ids, c = .markPaid ids → ∃ rows, Found sessionId rows log

/-- Every payment that was found has been marked and its plan activated. -/
structure Processed (lower : String → String) (sessionId : String) (log : PaymentLog) : Prop where
  done : ∃ rows, Found sessionId rows log ∧ ∀ row ∈ rows,
    (∃ ids, row.id ∈ ids ∧ Marked ids log) ∧
      ∀ planId, extractPlanFromPayment lower row = some planId →
        Activated row.id row.userId planId log

section Delivery

variable {env : PaymentEnv} {sessionId : String}

private theorem ordered_plain {log : PaymentLog} {c : PaymentCall} (h : ∀ ids, c ≠ .markPaid ids) :
    Ordered sessionId log c := by
  intro ids hc
  exact (h ids hc).elim

private theorem syncQuotaForPlan_wp (payment userId : String) (planId : Option SubscriptionPlanId)
    (log : PaymentLog) :
    (syncQuotaForPlan env payment userId planId).Wp (Ordered sessionId) (logged fun _ _ => True)
      (Post (fun _ log' => log ⊆ log' ∧
        ∀ p, planId = some p → Activated payment userId p log') fun _ _ => True) log := by
  cases planId with
  | none => exact ⟨List.Subset.refl log, by simp⟩
  | some p =>
    refine (wp_bind _ _ _ _).mpr ?_
    unfold checkUserService
    split
    · trivial
    · split
      · trivial
      · refine ⟨ordered_plain (by simp), fun r log' hlog => ?_⟩
        obtain ⟨-, rfl⟩ := hlog
        cases r with
        | error e => trivial
        | ok u =>
          refine ⟨by simp, ?_⟩
          intro p' hp
          cases hp
          simp [Activated]

private theorem applyPlans_wp (rows : List PaymentRow) (log : PaymentLog) :
    (applyPlans env rows).Wp (Ordered sessionId) (logged fun _ _ => True)
      (Post (fun _ log' => log ⊆ log' ∧ ∀ row ∈ rows, ∀ p,
        extractPlanFromPayment env.lower row = some p → Activated row.id row.userId p log')
        fun _ _ => True) log := by
  induction rows generalizing log with
  | nil => exact ⟨List.Subset.refl log, by simp⟩
  | cons row rest ih =>
    refine (wp_bind _ _ _ _).mpr ((syncQuotaForPlan_wp _ _ _ log).mono ?_)
    intro out log₁ hout
    cases out with
    | error e => trivial
    | ok u =>
      obtain ⟨hsub, hact⟩ := hout
      refine (wp_bind _ _ _ _).mpr ((ih log₁).mono ?_)
      intro out log₂ hout
      cases out with
      | error e => trivial
      | ok applied =>
        obtain ⟨hsub', hrest⟩ := hout
        refine ⟨List.Subset.trans hsub hsub', ?_⟩
        intro r hr p hp
        rcases List.mem_cons.mp hr with rfl | hr
        · exact hsub' (hact p hp)
        · exact hrest r hr p hp

private theorem markStripeSessionAsPaid_wp (log : PaymentLog) :
    (markStripeSessionAsPaid env sessionId none).Wp (Ordered sessionId) (logged fun _ _ => True)
      (Post (fun _ log' => log ⊆ log' ∧ Processed env.lower sessionId log') fun _ _ => True) log := by
  refine (wp_bind _ _ _ _).mpr ⟨ordered_plain (by simp), fun r log₁ h₁ => ?_⟩
  obtain ⟨-, rfl⟩ := h₁
  rw [wp_ofExcept]
  cases r with
  | error e => trivial
  | ok rows =>
    have hfound : Found sessionId rows (log ++ [⟨PaymentCall.findStripePayments sessionId, .ok rows⟩]) := by
      simp [Found]
    simp only [post_ok]
    split
    · rename_i hnil
      exact ⟨by simp, ⟨rows, hfound, by simp [hnil]⟩⟩
    · simp only [Option.any_none, Bool.false_eq_true, if_false]
      refine (wp_bind _ _ _ _).mpr ⟨fun ids _ => ⟨rows, hfound⟩, fun r log₂ h₂ => ?_⟩
      obtain ⟨-, rfl⟩ := h₂
      rw [wp_ofExcept]
      cases r with
      | error e => trivial
      | ok u =>
        refine (wp_bind _ _ _ _).mpr ((applyPlans_wp rows _).mono ?_)
        intro out log₃ hout
        cases out with
        | error e => trivial
        | ok applied =>
          obtain ⟨hsub, hact⟩ := hout
          refine ⟨fun e he => hsub (by simp [he]), ⟨rows, hsub (List.mem_append_left _ hfound), ?_⟩⟩
          intro row hrow
          refine ⟨⟨rows.map PaymentRow.id, List.mem_map_of_mem hrow, hsub (by simp)⟩, ?_⟩
          intro p hp
          exact hact row hrow p hp

theorem handleEvent_wp {e : StripeEvent} (htype : e.type = .sessionCompleted) :
    (handleEvent env e).Wp (Ordered e.session) (logged fun _ _ => True)
      (Post (fun _ log => (Recorded e log ∧ Processed env.lower e.session log) ∨
        (Refused e log ∧ ¬ Recorded e log)) fun _ _ => True) [] := by
  refine ⟨ordered_plain (by simp), fun r log h => ?_⟩
  obtain ⟨-, rfl⟩ := h
  cases r with
  | ok u =>
    simp only [processEvent, htype]
    refine (wp_bind _ _ _ _).mpr ((markStripeSessionAsPaid_wp _).mono ?_)
    intro out log hout
    cases out with
    | error f => trivial
    | ok result =>
      obtain ⟨hsub, hdone⟩ := hout
      exact .inl ⟨hsub (by simp), hdone⟩
  | error f =>
    dsimp only
    split
    · rename_i hviolation
      exact .inr ⟨⟨f, hviolation, by simp⟩, by simp [Recorded]⟩
    · trivial

/-- What deliveries of completed sessions guarantee; of other requests nothing is said. -/
def contract (env : PaymentEnv) : (paymentServer env).Contract where
  fits := fun _ _ => True
  permits := fun q log c => ∀ e, q.event env = some e → e.type = .sessionCompleted →
    Ordered e.session log c
  returns := fun q _ log => ∀ e, q.event env = some e → e.type = .sessionCompleted →
    (Recorded e log ∧ Processed env.lower e.session log) ∨ (Refused e log ∧ ¬ Recorded e log)
  sound := fun _ _ _ _ _ _ _ => trivial
  holds := by
    intro q
    by_cases hq : ∃ e, q.event env = some e ∧ e.type = .sessionCompleted
    · obtain ⟨e, he, htype⟩ := hq
      have h := @handleEvent_wp env e htype
      rw [← PaymentRequest.handle_of_event he] at h
      refine (h.permits_mono ?_).mono ?_
      · intro log c hp e' he' _
        rw [he] at he'
        cases he'
        exact hp
      · intro out log hout
        cases out with
        | error f => trivial
        | ok reply =>
          intro e' he' _
          rw [he] at he'
          cases he'
          exact hout
    · refine (wp_true ?_ _ _).mono ?_
      · intro log c e he htype
        exact (hq ⟨e, he, htype⟩).elim
      · intro out log _
        cases out with
        | error f => trivial
        | ok reply =>
          intro e he htype
          exact (hq ⟨e, he, htype⟩).elim

end Delivery

section Invariant

variable {env : PaymentEnv} {s s' : PaymentStore}

/-- A delivery of a completed session that has not failed. -/
structure Delivering (env : PaymentEnv) (task : PaymentTask) (e : StripeEvent) : Prop where
  event : task.request.event env = some e
  type : e.type = .sessionCompleted
  unfailed : ∀ f, task.rest ≠ .raise f

/-- The delivery that recorded the event has returned. -/
def Finished (env : PaymentEnv) (tasks : List PaymentTask) (e : StripeEvent) : Prop :=
  ∃ task ∈ tasks, task.request.event env = some e ∧ Recorded e task.log ∧
    ∃ reply, task.rest = .ret reply

/-- A delivery is refused only after the one that recorded its event has returned, and no payment
of a session is made after a delivery of it, still under way or returned, has looked them up. -/
structure Careful (env : PaymentEnv) (x : PaymentStage) (l : PaymentLabel) : Prop where
  refused : ∀ i task e f, x.tasks[i]? = some task → task.request.event env = some e →
    e.type = .sessionCompleted → isUniqueViolation f = true →
    l = .act i (PaymentCall.createEvent e.id e.type) (.error f) → Finished env x.tasks e
  inserted : ∀ i d r, l = .act i (PaymentCall.createPayment d) r → ∀ task ∈ x.tasks, ∀ e,
    Delivering env task e → ∀ rows, Found e.session rows task.log → methodOf e.session d.method = false

/-- The payments of a session as a delivery of it has left them. -/
structure Tracks (env : PaymentEnv) (s : PaymentStore) (task : PaymentTask) : Prop where
  found : ∀ e, Delivering env task e → ∀ rows, Found e.session rows task.log →
    ∀ row ∈ s.payments.rows, row.ofSession e.session = true → ∃ r ∈ rows, r.Same row
  marked : ∀ e, Delivering env task e → ∀ ids, Marked ids task.log →
    ∀ row ∈ s.payments.rows, row.ofSession e.session = true → row.id ∈ ids →
      row.status.settled = true
  looked : ∀ e, Delivering env task e → ∀ ids, Marked ids task.log →
    ∃ rows, Found e.session rows task.log

private theorem tracks_state {task : PaymentTask} (ht : Tracks env s task)
    (h : ∀ row ∈ s'.payments.rows, (∃ old ∈ s.payments.rows, old.Same row) ∨
      ∀ e, Delivering env task e → ∀ rows, Found e.session rows task.log →
        row.ofSession e.session = false) : Tracks env s' task where
  found := by
    intro e he rows hrows row hrow hs
    rcases h row hrow with ⟨old, hold, hsame⟩ | hnew
    · obtain ⟨r, hr, hrold⟩ := ht.found e he rows hrows old hold (by rw [hsame.ofSession, hs])
      exact ⟨r, hr, hrold.trans hsame⟩
    · simp [hnew e he rows hrows] at hs
  marked := by
    intro e he ids hids row hrow hs hid
    rcases h row hrow with ⟨old, hold, hsame⟩ | hnew
    · apply hsame.settled
      exact ht.marked e he ids hids old hold (by rw [hsame.ofSession, hs]) (hsame.id ▸ hid)
    · obtain ⟨rows, hrows⟩ := ht.looked e he ids hids
      simp [hnew e he rows hrows] at hs
  looked := ht.looked

private theorem tracks_serve {task : PaymentTask} {tasks : List PaymentTask} {i : Nat}
    {c : PaymentCall} {r : c.Answer} (ht : Tracks env s task) (hm : task ∈ tasks)
    (he : c.mayServe env.json s r s') (hcareful : Careful env ⟨s, tasks⟩ (.act i c r)) :
    Tracks env s' task := by
  apply tracks_state ht
  intro row hrow
  rcases payments_of_mayServe he hrow with hold | ⟨d, id, rfl, rfl⟩
  · exact .inl hold
  · right
    intro e hdel rows hrows
    have hfree := hcareful.inserted i d r rfl task hm e hdel rows hrows
    simp [PaymentRow.ofSession, PaymentData.toRow, hfree]

variable {tasks : List PaymentTask} {i : Nat} {q : PaymentRequest} {log : PaymentLog}
  {c : PaymentCall} {k : c.Answer → PaymentProcess PaymentReply} {r : c.Answer}

private theorem delivering_before {e : StripeEvent}
    (h : Delivering env ⟨q, log ++ [⟨c, r⟩], k r⟩ e) : Delivering env ⟨q, log, .call c k⟩ e where
  event := h.event
  type := h.type
  unfailed := by simp

private theorem tracks_act (ht : Tracks env s ⟨q, log, .call c k⟩)
    (hm : ⟨q, log, .call c k⟩ ∈ tasks) (hk : (contract env).Kept ⟨q, log, .call c k⟩)
    (he : c.mayServe env.json s r s') (hcareful : Careful env ⟨s, tasks⟩ (.act i c r)) :
    Tracks env s' ⟨q, log ++ [⟨c, r⟩], k r⟩ := by
  have hold := tracks_serve ht hm he hcareful
  constructor
  · intro e hdel rows hrows row hrow hs
    rcases List.mem_append.mp hrows with hrows | hrows
    · exact hold.found e (delivering_before hdel) rows hrows row hrow hs
    · obtain ⟨rfl, hr⟩ := Sigma.mk.inj (List.mem_singleton.mp hrows)
      obtain rfl := eq_of_heq hr
      obtain ⟨rfl, hperm⟩ := found_of_mayServe he
      refine ⟨row, hperm.mem_iff.mpr ?_, .refl row⟩
      exact List.mem_filter.mpr ⟨hrow, hs⟩
  · intro e hdel ids hids row hrow hs hid
    rcases List.mem_append.mp hids with hids | hids
    · exact hold.marked e (delivering_before hdel) ids hids row hrow hs hid
    · obtain ⟨rfl, hr⟩ := Sigma.mk.inj (List.mem_singleton.mp hids)
      obtain rfl := eq_of_heq hr
      exact settled_of_markPaid he hrow hid
  · intro e hdel ids hids
    rcases List.mem_append.mp hids with hids | hids
    · obtain ⟨rows, hrows⟩ := hold.looked e (delivering_before hdel) ids hids
      exact ⟨rows, List.mem_append_left _ hrows⟩
    · obtain ⟨rfl, -⟩ := Sigma.mk.inj (List.mem_singleton.mp hids)
      obtain ⟨rows, hrows⟩ := hk.1 e hdel.event hdel.type ids rfl
      exact ⟨rows, List.mem_append_left _ hrows⟩

private theorem finished_set {e : StripeEvent} {task task' : PaymentTask}
    (hi : tasks[i]? = some task) (hl : task.Live) (h : Finished env tasks e) :
    Finished env (tasks.set i task') e := by
  obtain ⟨done, hm, hevent, hrec, reply, hret⟩ := h
  obtain ⟨j, hj⟩ := List.mem_iff_getElem?.mp hm
  have hij : i ≠ j := by
    intro hij
    rw [hij, hj] at hi
    cases hi
    obtain ⟨c, k, hc⟩ := hl
    rw [hret] at hc
    cases hc
  refine ⟨done, List.mem_of_getElem? (i := j) ?_, hevent, hrec, reply, hret⟩
  rw [List.getElem?_set_ne hij, hj]

/-- Every delivery tracks its payments, and a refused one has a finished one before it. -/
structure Settles (env : PaymentEnv) (x : PaymentStage) : Prop where
  kept : ∀ task ∈ x.tasks, (contract env).Kept task
  tracks : ∀ task ∈ x.tasks, Tracks env x.state task
  refused : ∀ task ∈ x.tasks, ∀ e, task.request.event env = some e →
    e.type = .sessionCompleted → Refused e task.log → Finished env x.tasks e

/-- A step of the service that meets the two conditions. -/
def CarefulStep (env : PaymentEnv) (x : PaymentStage) (l : PaymentLabel) (y : PaymentStage) : Prop :=
  (paymentServer env).Step x l y ∧ Careful env x l

private theorem settles_act (hx : Settles env ⟨s, tasks⟩)
    (hi : tasks[i]? = some ⟨q, log, .call c k⟩) (he : c.mayServe env.json s r s')
    (hcareful : Careful env ⟨s, tasks⟩ (.act i c r))
    (hkept : ∀ task ∈ tasks.set i ⟨q, log ++ [⟨c, r⟩], k r⟩, (contract env).Kept task) :
    Settles env ⟨s', tasks.set i ⟨q, log ++ [⟨c, r⟩], k r⟩⟩ := by
  have hm : ⟨q, log, .call c k⟩ ∈ tasks := List.mem_of_getElem? hi
  have hlive : (⟨q, log, .call c k⟩ : PaymentTask).Live := ⟨c, k, rfl⟩
  refine ⟨hkept, ?_, ?_⟩
  · intro task htask
    rcases List.mem_or_eq_of_mem_set htask with htask | rfl
    · exact tracks_serve (hx.tracks task htask) htask he hcareful
    · exact tracks_act (hx.tracks _ hm) hm (hx.kept _ hm) he hcareful
  · intro task htask e hevent htype href
    apply finished_set hi hlive
    rcases List.mem_or_eq_of_mem_set htask with htask | rfl
    · exact hx.refused task htask e hevent htype href
    · obtain ⟨f, hf, hmem⟩ := href
      rcases List.mem_append.mp hmem with hmem | hmem
      · exact hx.refused _ hm e hevent htype ⟨f, hf, hmem⟩
      · obtain ⟨rfl, hr⟩ := Sigma.mk.inj (List.mem_singleton.mp hmem)
        obtain rfl := eq_of_heq hr
        exact hcareful.refused i _ e f hi hevent htype hf rfl

private theorem settles_begin (hx : Settles env ⟨s, tasks⟩) {p : PaymentProcess PaymentReply}
    (hkept : ∀ task ∈ tasks ++ [⟨q, [], p⟩], (contract env).Kept task) :
    Settles env ⟨s, tasks ++ [⟨q, [], p⟩]⟩ := by
  refine ⟨hkept, ?_, ?_⟩
  · intro task htask
    rcases List.mem_append.mp htask with htask | htask
    · exact hx.tracks task htask
    · obtain rfl := List.mem_singleton.mp htask
      exact ⟨by simp [Found], by simp [Marked], by simp [Marked]⟩
  · intro task htask e hevent htype href
    rcases List.mem_append.mp htask with htask | htask
    · obtain ⟨done, hdone, h⟩ := hx.refused task htask e hevent htype href
      exact ⟨done, List.mem_append_left _ hdone, h⟩
    · obtain rfl := List.mem_singleton.mp htask
      simp [Refused] at href

private theorem settles_crash (hx : Settles env ⟨s, tasks⟩) {task : PaymentTask} {f : Failure}
    (hi : tasks[i]? = some task) (hl : task.Live)
    (hkept : ∀ t ∈ tasks.set i { task with rest := .raise f }, (contract env).Kept t) :
    Settles env ⟨s, tasks.set i { task with rest := .raise f }⟩ := by
  refine ⟨hkept, ?_, ?_⟩
  · intro t ht
    rcases List.mem_or_eq_of_mem_set ht with ht | rfl
    · exact hx.tracks t ht
    · have hfailed : ∀ e, ¬ Delivering env { task with rest := .raise f } e := by
        intro e he
        exact he.unfailed f rfl
      exact ⟨fun e he => (hfailed e he).elim, fun e he => (hfailed e he).elim,
        fun e he => (hfailed e he).elim⟩
  · intro t ht e hevent htype href
    apply finished_set hi hl
    rcases List.mem_or_eq_of_mem_set ht with ht | rfl
    · exact hx.refused t ht e hevent htype href
    · exact hx.refused task (List.mem_of_getElem? hi) e hevent htype href

private theorem old_of_changes {json : PlanCatalogJson} (h : s.Changes json s') : s.Old s' := by
  obtain ⟨q, out, t, ⟨subs, -, rfl⟩, rfl | rfl | rfl⟩ := h
  · exact old_withSubs s subs
  · exact old_withSubs s subs
  · exact old_withSubs s subs

private theorem settles_step (x : PaymentStage) (l : PaymentLabel) (y : PaymentStage)
    (hx : Settles env x) (h : CarefulStep env x l y) : Settles env y := by
  obtain ⟨hstep, hcareful⟩ := h
  have hkept := (contract env).kept_step x l y hx.kept hstep
  cases hstep with
  | begin q => exact settles_begin hx hkept
  | act hi he => exact settles_act hx hi he hcareful hkept
  | crash f hi hl => exact settles_crash hx hi hl hkept
  | change hc =>
    refine ⟨hkept, ?_, hx.refused⟩
    intro task htask
    exact tracks_state (hx.tracks task htask) fun row hrow => .inl (old_of_changes hc row hrow)

private theorem settled_of_processed {y : PaymentStage} (hy : Settles env y) {task : PaymentTask}
    (hm : task ∈ y.tasks) {e : StripeEvent} (hdel : Delivering env task e)
    (hdone : Processed env.lower e.session task.log) {row : PaymentRow}
    (hrow : row ∈ y.state.payments.rows) (hs : row.ofSession e.session = true) :
    row.status.settled = true ∧ ∀ planId, extractPlanFromPayment env.lower row = some planId →
      Activated row.id row.userId planId task.log := by
  obtain ⟨rows, hrows, hall⟩ := hdone.done
  obtain ⟨r, hr, hsame⟩ := (hy.tracks task hm).found e hdel rows hrows row hrow hs
  obtain ⟨⟨ids, hids, hmarked⟩, hact⟩ := hall r hr
  constructor
  · exact (hy.tracks task hm).marked e hdel ids hmarked row hrow hs (hsame.id ▸ hids)
  · intro planId hplan
    rw [← hsame.plan env.lower] at hplan
    have h := hact planId hplan
    rwa [hsame.id, hsame.userId] at h

/-- Whenever a delivery of a completed session has returned, every payment of the session is paid
and the activation of its plan has succeeded. -/
theorem returned_delivery_settles {trace : List (PaymentLabel × PaymentStage)} {y : PaymentStage}
    (h : Run (CarefulStep env) ⟨s, []⟩ trace y) {task : PaymentTask} (hm : task ∈ y.tasks)
    {e : StripeEvent} (hevent : task.request.event env = some e)
    (htype : e.type = .sessionCompleted) {reply : PaymentReply} (hret : task.rest = .ret reply)
    {row : PaymentRow} (hrow : row ∈ y.state.payments.rows)
    (hs : row.ofSession e.session = true) :
    row.status.settled = true ∧ ∀ planId, extractPlanFromPayment env.lower row = some planId →
      ∃ t ∈ y.tasks, Activated row.id row.userId planId t.log := by
  have hy := h.invariant (⟨by simp, by simp, by simp⟩ : Settles env ⟨s, []⟩) settles_step
  have hreturned : ∀ t ∈ y.tasks, t.request.event env = some e → ∀ reply, t.rest = .ret reply →
      (Recorded e t.log ∧ Processed env.lower e.session t.log) ∨
        (Refused e t.log ∧ ¬ Recorded e t.log) := by
    intro t ht hevent reply hret
    have hk := hy.kept t ht
    unfold Server.Contract.Kept at hk
    rw [hret] at hk
    exact hk e hevent htype
  have hfinished : Finished env y.tasks e := by
    rcases hreturned task hm hevent reply hret with ⟨hrec, -⟩ | ⟨href, -⟩
    · exact ⟨task, hm, hevent, hrec, reply, hret⟩
    · exact hy.refused task hm e hevent htype href
  obtain ⟨done, hdone, hdevent, hrec, reply', hdret⟩ := hfinished
  have hprocessed : Processed env.lower e.session done.log := by
    rcases hreturned done hdone hdevent reply' hdret with ⟨-, hp⟩ | ⟨-, hnot⟩
    · exact hp
    · exact (hnot hrec).elim
  have hdel : Delivering env done e := ⟨hdevent, htype, by simp [hdret]⟩
  obtain ⟨hsettled, hact⟩ := settled_of_processed hy hdone hdel hprocessed hrow hs
  exact ⟨hsettled, fun planId hplan => ⟨done, hdone, hact planId hplan⟩⟩

end Invariant

section Sample

private def sampleEvent : StripeEvent := ⟨"evt_1", .sessionCompleted, "cs_test_1"⟩

private def sampleDelivery : PaymentRequest := .webhook "body" (some "v1")

/-- The first delivery records the event and cannot read the payments; the second one is refused
as a duplicate and returns, with the payment still pending and nothing activated. -/
theorem failed_delivery_loses_payment :
    Reaches (paymentServer .sample).Step ⟨PaymentStore.sample, []⟩ fun y => ∃ task,
      y.tasks[1]? = some task ∧ task.request.event .sample = some sampleEvent ∧
        task.rest = .ret .received ∧ PaymentRow.sample ∈ y.state.payments.rows ∧
        PaymentRow.sample.ofSession "cs_test_1" = true ∧ PaymentRow.sample.status = .pending ∧
        ∀ t ∈ y.tasks, ¬ Activated "p1" "u" (.managed .pro) t.log := by
  apply Reaches.next (.begin sampleDelivery)
  apply Reaches.next (.act (I := paymentInterface) (i := 0)
    (c := PaymentCall.createEvent "evt_1" .sessionCompleted) (r := .ok ()) rfl
    (.inl (.inl ⟨by decide, rfl, rfl⟩)))
  apply Reaches.next (.act (I := paymentInterface) (i := 0)
    (c := PaymentCall.findStripePayments "cs_test_1") (r := .error ⟨.connection, "timeout"⟩) rfl
    (.inr ⟨⟨_, rfl, by decide⟩, .inl rfl⟩))
  apply Reaches.next (.begin sampleDelivery)
  apply Reaches.next (.act (I := paymentInterface) (i := 1)
    (c := PaymentCall.createEvent "evt_1" .sessionCompleted) (r := .error ⟨.database, "P2002"⟩) rfl
    (.inl (.inr ⟨by decide, rfl, rfl⟩)))
  refine .here ⟨_, rfl, rfl, rfl, by decide, by decide, rfl, ?_⟩
  intro t ht
  rcases List.mem_cons.mp ht with rfl | ht
  · simp [Activated]
  · rcases List.mem_cons.mp ht with rfl | ht
    · simp [Activated]
    · cases ht

private theorem careful_begin {env : PaymentEnv} {x : PaymentStage} {q : PaymentRequest} :
    Careful env x (.begin q) := ⟨by simp, by simp⟩

private theorem careful_act {env : PaymentEnv} {x : PaymentStage} {i : Nat} {c : PaymentCall}
    {r : c.Answer} (hc : ∀ d, c ≠ .createPayment d)
    (hr : ∀ eventId type f, c = .createEvent eventId type → HEq r (.error f : Except Failure Unit) →
      isUniqueViolation f = false) :
    Careful env x (.act i c r) where
  refused := by
    intro j task e f _ _ _ hf hl
    simp only [StageLabel.act.injEq] at hl
    obtain ⟨-, rfl, hr'⟩ := hl
    rw [hr _ _ f rfl hr'] at hf
    cases hf
  inserted := by
    intro j d r' hl
    simp only [StageLabel.act.injEq] at hl
    exact (hc d hl.2.1).elim

private theorem careful_duplicate {x : PaymentStage} {i : Nat} {log : PaymentLog}
    {p : PaymentProcess PaymentReply} (hi : x.tasks[i]? = some ⟨sampleDelivery, log, p⟩)
    (h : Finished .sample x.tasks sampleEvent) :
    Careful .sample x (.act i (PaymentCall.createEvent "evt_1" .sessionCompleted)
      (.error ⟨.database, "P2002"⟩)) where
  refused := by
    intro j task e f hj hevent _ _ hl
    simp only [StageLabel.act.injEq] at hl
    obtain ⟨rfl, -, -⟩ := hl
    obtain rfl := Option.some.inj (hi.symm.trans hj)
    obtain rfl : sampleEvent = e := Option.some.inj hevent
    exact h
  inserted := by
    intro j d r' hl
    simp at hl

private theorem sample_complete : PaymentStore.sample.subs.Complete := by
  intro p
  cases p <;> rfl

private def paidRow : PaymentRow := { PaymentRow.sample with status := .paid }

/-- The first delivery cannot record the event, the second one settles the payment, and the third
one is a duplicate. -/
private theorem single_run : Reaches (CarefulStep .sample) ⟨PaymentStore.sample, []⟩ fun y =>
    ∃ failed task duplicate e, y.tasks = [failed, task, duplicate] ∧
      task.request.event .sample = some sampleEvent ∧ failed.rest = .raise e ∧
      task.rest = .ret .received ∧ duplicate.rest = .ret .received ∧
      paidRow ∈ y.state.payments.rows := by
  have huser : PaymentStore.sample.subs.users.find? "u" = some ⟨"u", .user, true⟩ := rfl
  obtain ⟨reply, howner, hends⟩ :=
    @activation_ends .unset _ sample_complete _ _ (.managed .pro) huser
  apply Reaches.next ⟨.begin sampleDelivery, careful_begin⟩
  apply Reaches.next ⟨.act (I := paymentInterface) (i := 0)
    (c := PaymentCall.createEvent "evt_1" .sessionCompleted) (r := .error ⟨.connection, "timeout"⟩)
    rfl (.inr ⟨⟨_, rfl, by decide⟩, .inl rfl⟩), careful_act (by simp) (by simp +decide)⟩
  apply Reaches.next ⟨.begin sampleDelivery, careful_begin⟩
  apply Reaches.next ⟨.act (I := paymentInterface) (i := 1)
    (c := PaymentCall.createEvent "evt_1" .sessionCompleted) (r := .ok ()) rfl
    (.inl (.inl ⟨by decide, rfl, rfl⟩)), careful_act (by simp) (by simp)⟩
  apply Reaches.next ⟨.act (I := paymentInterface) (i := 1)
    (c := PaymentCall.findStripePayments "cs_test_1") (r := .ok [PaymentRow.sample]) rfl
    (.inl ⟨⟨[PaymentRow.sample], by decide, rfl⟩, rfl⟩), careful_act (by simp) (by simp)⟩
  apply Reaches.next ⟨.act (I := paymentInterface) (i := 1)
    (c := PaymentCall.markPaid ["p1"]) (r := .ok ()) rfl
    (.inl ⟨rfl, rfl⟩), careful_act (by simp) (by simp)⟩
  apply Reaches.next ⟨.act (I := paymentInterface) (i := 1)
    (c := PaymentCall.activate "p1" "u" (.managed .pro)) (r := .ok ()) rfl
    (.inl ⟨.ok reply, ⟨_, hends, rfl⟩, rfl⟩), careful_act (by simp) (by simp)⟩
  apply Reaches.next ⟨.begin sampleDelivery, careful_begin⟩
  apply Reaches.next ⟨.act (I := paymentInterface) (i := 2)
    (c := PaymentCall.createEvent "evt_1" .sessionCompleted) (r := .error ⟨.database, "P2002"⟩) rfl
    (.inl (.inr ⟨List.mem_singleton_self _, rfl, rfl⟩)), careful_duplicate rfl
      ⟨_, List.mem_cons_of_mem _ List.mem_cons_self, rfl, List.mem_cons_self, _, rfl⟩⟩
  exact .here ⟨_, _, _, _, rfl, rfl, rfl, rfl, rfl, List.mem_singleton_self paidRow⟩

/-- A delivery whose calls all succeed settles the payment, after one that failed and before one
that is refused as a duplicate. -/
theorem returned_delivery_settles_single : ∃ trace y,
    Run (CarefulStep .sample) ⟨PaymentStore.sample, []⟩ trace y ∧ y.tasks.length = 3 ∧
      paidRow ∈ y.state.payments.rows ∧ paidRow.status.settled = true ∧
      ∃ t ∈ y.tasks, Activated "p1" "u" (.managed .pro) t.log := by
  obtain ⟨trace, y, hrun, failed, task, duplicate, e, htasks, hevent, -, hret, -, hrow⟩ := single_run
  have htask : task ∈ y.tasks := by simp [htasks]
  obtain ⟨hsettled, hact⟩ := returned_delivery_settles hrun htask hevent rfl hret hrow (by decide)
  exact ⟨trace, y, hrun, by simp [htasks], hrow, hsettled, hact _ (by decide)⟩

end Sample

end Webhook

end CloudVM
