import CloudVM.Auth.Server

/-!
# Concurrent refreshes of one token

Any number of `refreshTokens` calls present the same token, their steps in any order, with
failing connections, crashes and lost Redis entries. A call holds the token between its
successful lookup and its deletion. If no lookup succeeds while another call holds the token,
at most one call returns a new pair; otherwise two can.
-/

namespace CloudVM

open AuthStore Process AuthService

namespace Rotation

section Log

def lookedUp (token : Bearer) : Event authInterface → Option RefreshRow
  | ⟨.findRefreshToken t, .ok (some (row, _))⟩ => if t = token then some row else none
  | _ => none

def isDeletion : Event authInterface → Bool
  | ⟨.deleteTokenRow _, .ok ()⟩ => true
  | _ => false

def isFailedDeletion : Event authInterface → Bool
  | ⟨.deleteTokenRow _, .error _⟩ => true
  | _ => false

def FoundRow (log : AuthLog) (token : Bearer) (row : RefreshRow) : Prop :=
  ∃ e ∈ log, lookedUp token e = some row

def RowDeleted (log : AuthLog) : Prop := ∃ e ∈ log, isDeletion e = true

/-- The deletion of a row was reported as failed. -/
def DeleteFailed (log : AuthLog) : Prop := ∃ e ∈ log, isFailedDeletion e = true

theorem eq_of_lookedUp {token : Bearer} {e : Event authInterface} {row : RefreshRow}
    (h : lookedUp token e = some row) :
    ∃ user, e = ⟨AuthCall.findRefreshToken token, .ok (some (row, user))⟩ := by
  unfold lookedUp at h
  split at h
  · split at h
    · rename_i ht
      cases h
      exact ⟨_, by rw [ht]⟩
    · cases h
  · cases h

theorem eq_of_isDeletion {e : Event authInterface} (h : isDeletion e = true) :
    ∃ id, e = ⟨AuthCall.deleteTokenRow id, .ok ()⟩ := by
  unfold isDeletion at h
  split at h
  · exact ⟨_, rfl⟩
  · cases h

@[simp] theorem foundRow_nil {token : Bearer} {row : RefreshRow} : ¬ FoundRow [] token row := by
  simp [FoundRow]

@[simp] theorem rowDeleted_nil : ¬ RowDeleted [] := by simp [RowDeleted]

@[simp] theorem deleteFailed_nil : ¬ DeleteFailed [] := by simp [DeleteFailed]

@[simp] theorem foundRow_append {log log' : AuthLog} {token : Bearer} {row : RefreshRow} :
    FoundRow (log ++ log') token row ↔ FoundRow log token row ∨ FoundRow log' token row := by
  simp [FoundRow, or_and_right, exists_or]

@[simp] theorem foundRow_cons {e : Event authInterface} {log : AuthLog} {token : Bearer}
    {row : RefreshRow} :
    FoundRow (e :: log) token row ↔ lookedUp token e = some row ∨ FoundRow log token row := by
  simp [FoundRow]

@[simp] theorem rowDeleted_append {log log' : AuthLog} :
    RowDeleted (log ++ log') ↔ RowDeleted log ∨ RowDeleted log' := by
  simp [RowDeleted, or_and_right, exists_or]

@[simp] theorem rowDeleted_cons {e : Event authInterface} {log : AuthLog} :
    RowDeleted (e :: log) ↔ isDeletion e = true ∨ RowDeleted log := by
  simp [RowDeleted]

@[simp] theorem deleteFailed_append {log log' : AuthLog} :
    DeleteFailed (log ++ log') ↔ DeleteFailed log ∨ DeleteFailed log' := by
  simp [DeleteFailed, or_and_right, exists_or]

@[simp] theorem deleteFailed_cons {e : Event authInterface} {log : AuthLog} :
    DeleteFailed (e :: log) ↔ isFailedDeletion e = true ∨ DeleteFailed log := by
  simp [DeleteFailed]

/-- The call waits between its successful lookup and the answer to its deletion. -/
def Holding (task : AuthTask) : Prop :=
  task.Live ∧ (∃ token row, FoundRow task.log token row) ∧ ¬ RowDeleted task.log ∧
    ¬ DeleteFailed task.log

end Log

/-- What a refresh does, in terms of its log: it deletes only the row it found, makes no call
after a failed deletion, and stores only tokens whose `jti` it drew. -/
structure Permitted (token : Bearer) (log : AuthLog) (c : AuthCall) : Prop where
  unfailed : ¬ DeleteFailed log
  deletes : ∀ id, c = .deleteTokenRow id → ∃ row, FoundRow log token row ∧ row.id = id
  stores : ∀ t userId expiresAt, c = .createRefreshToken t userId expiresAt →
    (⟨AuthCall.randomUUID, t.jti⟩ : Event authInterface) ∈ log

/-- A refresh that returns has found its row and deleted it. -/
structure Completed (token : Bearer) (log : AuthLog) : Prop where
  found : ∃ row, FoundRow log token row
  deleted : RowDeleted log
  unfailed : ¬ DeleteFailed log

section Refresh

variable (env : AuthEnv) {token : Bearer} {log : AuthLog}

private theorem permitted_plain {c : AuthCall} (hf : ¬ DeleteFailed log)
    (hd : ∀ id, c ≠ .deleteTokenRow id) (hs : ∀ t u e, c ≠ .createRefreshToken t u e) :
    Permitted token log c :=
  ⟨hf, fun id h => (hd id h).elim, fun t u e h => (hs t u e h).elim⟩

private theorem plain_bind {α β : Type} {c : AuthCall} {g : c.Answer → AuthProcess α}
    {f : α → AuthProcess β} {Q : Except Failure β → AuthLog → Prop} (hf : ¬ DeleteFailed log)
    (hd : ∀ id, c ≠ .deleteTokenRow id) (hs : ∀ t u e, c ≠ .createRefreshToken t u e)
    (h : ∀ r, (g r >>= f).Wp (Permitted token) (logged fun _ _ => True) Q (log ++ [⟨c, r⟩])) :
    ((.call c g : AuthProcess α) >>= f).Wp (Permitted token) (logged fun _ _ => True) Q log := by
  refine (wp_bind _ _ _ _).mpr ⟨permitted_plain hf hd hs, fun r log' hlog => ?_⟩
  obtain ⟨-, rfl⟩ := hlog
  exact (wp_bind _ _ _ _).mp (h r)

theorem spend_completes {decoded : RefreshPayload} {row : RefreshRow} {user : AuthUser}
    {req : RequestInfo} (hf : ¬ DeleteFailed log) (hrow : FoundRow log token row) :
    (spend env decoded row user req).Wp (Permitted token) (logged fun _ _ => True)
      (Post (fun _ log => Completed token log) fun _ _ => True) log := by
  refine (wp_bind _ _ _ _).mpr ⟨⟨hf, ?_, by simp⟩, fun r log₁ h₁ => ?_⟩
  · intro id hid
    cases hid
    exact ⟨row, hrow, rfl⟩
  obtain ⟨-, rfl⟩ := h₁
  rw [wp_ofExcept]
  cases r with
  | error e => trivial
  | ok u =>
    apply plain_bind (c := .now) (by simpa [isFailedDeletion] using hf) (by simp) (by simp)
    intro clock
    apply plain_bind (c := .redisSet _ _ _) (by simpa [isFailedDeletion] using hf) (by simp) (by simp)
    intro r
    cases r with
    | error e => trivial
    | ok u =>
      refine (wp_bind _ _ _ _).mpr ?_
      apply plain_bind (c := .randomUUID) (by simpa [isFailedDeletion] using hf) (by simp) (by simp)
      intro jti
      apply plain_bind (c := .now) (by simpa [isFailedDeletion] using hf) (by simp) (by simp)
      intro clock'
      refine (wp_bind _ _ _ _).mpr ⟨⟨by simpa [isFailedDeletion] using hf, by simp, ?_⟩, fun r log₂ h₂ => ?_⟩
      · intro t u e ht
        cases ht
        simp
      · obtain ⟨-, rfl⟩ := h₂
        cases r with
        | error e => trivial
        | ok u =>
          exact ⟨⟨row, by simp [hrow]⟩, by simp [isDeletion], by simpa [isFailedDeletion] using hf⟩

theorem rotate_completes {decoded : RefreshPayload} {row : RefreshRow} {user : AuthUser}
    {req : RequestInfo} (hf : ¬ DeleteFailed log) (hrow : FoundRow log token row) :
    (rotate env decoded row user req).Wp (Permitted token) (logged fun _ _ => True)
      (Post (fun _ log => Completed token log) fun _ _ => True) log := by
  apply plain_bind (c := .now) hf (by simp) (by simp)
  intro clock
  by_cases hexp : row.expiresAt < clock
  · simp only [Process.ret_bind, hexp, if_true]
    refine (wp_bind _ _ _ _).mpr ⟨⟨by simpa [isFailedDeletion] using hf, ?_, by simp⟩, fun r log₁ _ => ?_⟩
    · intro id hid
      cases hid
      exact ⟨row, by simp [hrow], rfl⟩
    · rw [wp_ofExcept]
      cases r <;> trivial
  · simp only [Process.ret_bind, hexp, if_false]
    exact spend_completes env (by simpa [isFailedDeletion] using hf) (by simp [hrow])

theorem reuseDetected_completes {sub : String} (hf : ¬ DeleteFailed log) :
    (reuseDetected sub).Wp (Permitted token) (logged fun _ _ => True)
      (Post (fun _ log => Completed token log) fun _ _ => True) log := by
  apply plain_bind (c := .deleteTokensOf sub) hf (by simp) (by simp)
  intro r
  cases r <;> trivial

theorem refreshTokens_completes (req : RequestInfo) :
    (refreshTokens env token req).Wp (Permitted token) (logged fun _ _ => True)
      (Post (fun _ log => Completed token log) fun _ _ => True) [] := by
  apply plain_bind (c := .now) (by simp) (by simp) (by simp)
  intro clock
  simp only [Process.ret_bind]
  cases verify token clock with
  | none => trivial
  | some decoded =>
    apply plain_bind (c := .redisConnect) (by simp [isFailedDeletion]) (by simp) (by simp)
    intro r
    cases r with
    | error e => trivial
    | ok u =>
      apply plain_bind (c := .redisGet _) (by simp [isFailedDeletion]) (by simp) (by simp)
      intro r
      cases r with
      | error e => trivial
      | ok wasUsed =>
        simp only [Process.ofExcept_ok, Process.ret_bind]
        split
        · exact reuseDetected_completes (by simp [isFailedDeletion])
        · apply plain_bind (c := .findRefreshToken _) (by simp [isFailedDeletion]) (by simp) (by simp)
          intro r
          cases r with
          | error e => trivial
          | ok stored =>
            cases stored with
            | none => exact reuseDetected_completes (by simp [isFailedDeletion])
            | some found => exact rotate_completes env (by simp [isFailedDeletion]) (by simp [lookedUp])

/-- Every refresh keeps to its log; of the other requests nothing is said. -/
def contract : (authServer env).Contract where
  fits := fun _ _ => True
  permits := fun q log c => ∀ token, q.1 = .refresh token → Permitted token log c
  returns := fun q _ log => ∀ token, q.1 = .refresh token → Completed token log
  sound := fun _ _ _ _ _ _ _ => trivial
  holds := by
    intro q
    obtain ⟨request, req⟩ := q
    by_cases hq : ∃ token, request = .refresh token
    · obtain ⟨token, rfl⟩ := hq
      have h : (refreshTokens env token req).Wp (Permitted token) (logged fun _ _ => True)
          (Post (fun _ log => Completed token log) fun _ _ => True) [] :=
        refreshTokens_completes env req
      refine (h.permits_mono ?_).mono ?_
      · intro log c hp token' ht
        cases ht
        exact hp
      · intro out log hout
        cases out with
        | error e => trivial
        | ok reply =>
          intro token' ht
          cases ht
          exact hout
    · refine (wp_true ?_ _ _).mono ?_
      · intro log c token ht
        exact (hq ⟨token, ht⟩).elim
      · intro out log _
        cases out with
        | error e => trivial
        | ok reply =>
          intro token ht
          exact (hq ⟨token, ht⟩).elim

end Refresh

/-- No lookup finds a row while another call holds one. -/
def Exclusive (x : AuthStage) (l : AuthLabel) : Prop :=
  ∀ i token found, l = .act i (AuthCall.findRefreshToken token) (.ok (some found)) →
    ∀ task ∈ x.tasks, ¬ Holding task

def Presents (t : RefreshPayload) (l : AuthLabel) : Prop :=
  ∀ q, l = .begin q → q.1 = .refresh (.signed t)

section Invariant

variable (env : AuthEnv) {t : RefreshPayload}

/-- At most one call can still succeed, and after a deletion the token has no row. -/
structure Apart (t : RefreshPayload) (x : AuthStage) : Prop where
  request : ∀ task ∈ x.tasks, task.request.1 = .refresh (.signed t)
  drawn : t.jti ∈ x.state.drawn
  jtis : ∀ task ∈ x.tasks, ∀ jti,
    (⟨AuthCall.randomUUID, jti⟩ : Event authInterface) ∈ task.log → jti ≠ t.jti
  found : ∀ task ∈ x.tasks, ∀ row, FoundRow task.log (.signed t) row →
    ∀ r ∈ x.state.tokens.rows, r.token = t → r.id = row.id
  deleted : ∀ task ∈ x.tasks, RowDeleted task.log → ∀ r ∈ x.state.tokens.rows, r.token ≠ t
  single : ∀ (i j : Nat) (p q : AuthTask), i ≠ j → x.tasks[i]? = some p → x.tasks[j]? = some q →
    (∃ row, FoundRow p.log (.signed t) row) → (∃ row, FoundRow q.log (.signed t) row) →
    (∃ e, p.rest = .raise e) ∨ ∃ e, q.rest = .raise e

/-- A call that has found its row, holds nothing and has deleted nothing has ended in an error. -/
theorem raised_of_not_holding {p : AuthTask} (hk : (contract env).Kept p)
    (hq : p.request.1 = .refresh (.signed t)) (hf : ∃ row, FoundRow p.log (.signed t) row)
    (hh : ¬ Holding p) (hd : ¬ RowDeleted p.log) : ∃ e, p.rest = .raise e := by
  obtain ⟨request, log, rest⟩ := p
  obtain ⟨row, hf⟩ := hf
  cases rest with
  | raise e => exact ⟨e, rfl⟩
  | ret a =>
    have hc : Completed (.signed t) log := hk (.signed t) hq
    exact (hd hc.deleted).elim
  | call c k =>
    have hp : Permitted (.signed t) log c := hk.1 (.signed t) hq
    exact (hh ⟨⟨c, k, rfl⟩, ⟨_, row, hf⟩, hd, hp.unfailed⟩).elim

variable {s s' : AuthStore} {tasks : List AuthTask} {i : Nat} {q : AuthRequest × RequestInfo}
  {log : AuthLog} {c : AuthCall} {k : c.Answer → AuthProcess AuthReply} {r : c.Answer}

private theorem old_row (hx : Apart t ⟨s, tasks⟩) (hp : Permitted (.signed t) log c)
    (hm : ⟨q, log, .call c k⟩ ∈ tasks) (he : mayServe c s r s') {row : RefreshRow}
    (hr : row ∈ s'.tokens.rows) (ht : row.token = t) : row ∈ s.tokens.rows := by
  rcases (grows_of_mayServe he).2 row hr with hr | ⟨e, rfl⟩
  · exact hr
  · have hj := hx.jtis _ hm row.token.jti (hp.stores _ _ _ rfl)
    exact (hj (by rw [ht])).elim

private theorem served_deletion {id : String} (he : mayServe (.deleteTokenRow id) s (.ok ()) s') :
    s' = s.eraseTokens fun row => row.id = id := by
  rcases he with ⟨-, hs⟩ | ⟨⟨e, hfail⟩, -⟩
  · exact hs
  · cases hfail

/-- When a call has found the row, every other call that found it before has failed. -/
private theorem others_raised (hx : Apart t ⟨s, tasks⟩)
    (hk : ∀ task ∈ tasks, (contract env).Kept task)
    (hi : tasks[i]? = some ⟨q, log, .call c k⟩) (he : mayServe c s r s')
    (hexcl : Exclusive ⟨s, tasks⟩ (.act i c r)) {j : Nat} {p : AuthTask} (hij : j ≠ i)
    (hj : tasks[j]? = some p) (hfound : ∃ row, FoundRow (log ++ [⟨c, r⟩]) (.signed t) row)
    (hp : ∃ row, FoundRow p.log (.signed t) row) : ∃ e, p.rest = .raise e := by
  obtain ⟨row, hfound⟩ := hfound
  rw [foundRow_append] at hfound
  rcases hfound with hfound | hfound
  · rcases hx.single i j _ _ hij.symm hi hj ⟨row, hfound⟩ hp with ⟨e, hraise⟩ | hraise
    · cases hraise
    · exact hraise
  · simp only [foundRow_cons, foundRow_nil, or_false] at hfound
    obtain ⟨user, hev⟩ := eq_of_lookedUp hfound
    obtain ⟨rfl, hr⟩ := Sigma.mk.inj hev
    obtain rfl := eq_of_heq hr
    obtain ⟨rfl, hrow, hrt, -⟩ := lookup_of_mayServe he
    have hm : p ∈ tasks := List.mem_of_getElem? hj
    have hnot : ¬ RowDeleted p.log := fun hd => hx.deleted p hm hd row hrow hrt
    exact raised_of_not_holding env (hk p hm) (hx.request p hm) hp (hexcl _ _ _ rfl p hm) hnot

private theorem apart_act (hx : Apart t ⟨s, tasks⟩) (hk : ∀ task ∈ tasks, (contract env).Kept task)
    (hi : tasks[i]? = some ⟨q, log, .call c k⟩) (he : mayServe c s r s')
    (hexcl : Exclusive ⟨s, tasks⟩ (.act i c r)) :
    Apart t ⟨s', tasks.set i ⟨q, log ++ [⟨c, r⟩], k r⟩⟩ := by
  have hm : ⟨q, log, .call c k⟩ ∈ tasks := List.mem_of_getElem? hi
  have hq : q.1 = .refresh (.signed t) := hx.request _ hm
  have hp : Permitted (.signed t) log c := (hk _ hm).1 (.signed t) hq
  have hold : ∀ row ∈ s'.tokens.rows, row.token = t → row ∈ s.tokens.rows :=
    fun row hr ht => old_row hx hp hm he hr ht
  have hset : ∀ task ∈ tasks.set i ⟨q, log ++ [⟨c, r⟩], k r⟩,
      task = ⟨q, log ++ [⟨c, r⟩], k r⟩ ∨ task ∈ tasks := by
    intro task htask
    rcases List.mem_or_eq_of_mem_set htask with h | h
    · exact .inr h
    · exact .inl h
  constructor
  · intro task htask
    rcases hset task htask with rfl | htask
    · exact hq
    · exact hx.request task htask
  · exact (grows_of_mayServe he).1 hx.drawn
  · intro task htask jti hjti
    rcases hset task htask with rfl | htask
    · rcases List.mem_append.mp hjti with hjti | hjti
      · exact hx.jtis _ hm jti hjti
      · obtain ⟨rfl, hr⟩ := Sigma.mk.inj (List.mem_singleton.mp hjti)
        obtain rfl := eq_of_heq hr
        rcases he with ⟨-, hfresh, -⟩ | ⟨hfail, -⟩
        · exact fun hj => hfresh (hj ▸ hx.drawn)
        · exact hfail.elim
    · exact hx.jtis task htask jti hjti
  · intro task htask row hfound x hxr hxt
    rcases hset task htask with rfl | htask
    · rw [foundRow_append] at hfound
      rcases hfound with hfound | hfound
      · exact hx.found _ hm row hfound x (hold x hxr hxt) hxt
      · simp only [foundRow_cons, foundRow_nil, or_false] at hfound
        obtain ⟨user, hev⟩ := eq_of_lookedUp hfound
        obtain ⟨rfl, hr⟩ := Sigma.mk.inj hev
        obtain rfl := eq_of_heq hr
        obtain ⟨rfl, hrow, hrt, -⟩ := lookup_of_mayServe he
        exact congrArg RefreshRow.id
          (List.inj_on_of_nodup_map s'.unique hxr hrow (hxt.trans hrt.symm))
    · exact hx.found task htask row hfound x (hold x hxr hxt) hxt
  · intro task htask hdel x hxr hxt
    rcases hset task htask with rfl | htask
    · rw [rowDeleted_append] at hdel
      rcases hdel with hdel | hdel
      · exact hx.deleted _ hm hdel x (hold x hxr hxt) hxt
      · simp only [rowDeleted_cons, rowDeleted_nil, or_false] at hdel
        obtain ⟨id, hev⟩ := eq_of_isDeletion hdel
        obtain ⟨rfl, hr⟩ := Sigma.mk.inj hev
        obtain rfl := eq_of_heq hr
        obtain ⟨row, hfound, hid⟩ := hp.deletes id rfl
        have hxid := hx.found _ hm row hfound x (hold x hxr hxt) hxt
        rw [served_deletion he] at hxr
        have hkeep := ((Table.mem_erase _ _ _).mp hxr).2
        simp [hxid, hid] at hkeep
    · exact hx.deleted task htask hdel x (hold x hxr hxt) hxt
  · intro a b p p' hab ha hb hfp hfp'
    rcases getElem?_set_cases ha with ⟨rfl, rfl⟩ | ⟨hai, hold⟩
    · rcases getElem?_set_cases hb with ⟨rfl, -⟩ | ⟨hbi, hold'⟩
      · exact (hab rfl).elim
      · exact .inr (others_raised env hx hk hi he hexcl hbi hold' hfp hfp')
    · rcases getElem?_set_cases hb with ⟨rfl, rfl⟩ | ⟨-, hold'⟩
      · exact .inl (others_raised env hx hk hi he hexcl hai hold hfp' hfp)
      · exact hx.single a b p p' hab hold hold' hfp hfp'

private theorem apart_begin (hx : Apart t ⟨s, tasks⟩) {q : AuthRequest × RequestInfo}
    (hq : q.1 = .refresh (.signed t)) (p : AuthProcess AuthReply) :
    Apart t ⟨s, tasks ++ [⟨q, [], p⟩]⟩ := by
  constructor
  · intro task htask
    rcases List.mem_append.mp htask with htask | htask
    · exact hx.request task htask
    · obtain rfl := List.mem_singleton.mp htask
      exact hq
  · exact hx.drawn
  · intro task htask jti hjti
    rcases List.mem_append.mp htask with htask | htask
    · exact hx.jtis task htask jti hjti
    · obtain rfl := List.mem_singleton.mp htask
      simp at hjti
  · intro task htask row hfound
    rcases List.mem_append.mp htask with htask | htask
    · exact hx.found task htask row hfound
    · obtain rfl := List.mem_singleton.mp htask
      simp at hfound
  · intro task htask hdel
    rcases List.mem_append.mp htask with htask | htask
    · exact hx.deleted task htask hdel
    · obtain rfl := List.mem_singleton.mp htask
      simp at hdel
  · intro a b p p' hab ha hb hfp hfp'
    rcases getElem?_append_cases ha with ⟨-, rfl⟩ | ha
    · simp at hfp
    · rcases getElem?_append_cases hb with ⟨-, rfl⟩ | hb
      · simp at hfp'
      · exact hx.single a b p p' hab ha hb hfp hfp'

private theorem apart_crash (hx : Apart t ⟨s, tasks⟩) {task : AuthTask}
    (hi : tasks[i]? = some task) (e : Failure) :
    Apart t ⟨s, tasks.set i { task with rest := .raise e }⟩ := by
  have hm : task ∈ tasks := List.mem_of_getElem? hi
  have hset : ∀ x ∈ tasks.set i { task with rest := .raise e },
      ∃ y ∈ tasks, x.request = y.request ∧ x.log = y.log := by
    intro x hxt
    rcases List.mem_or_eq_of_mem_set hxt with h | rfl
    · exact ⟨x, h, rfl, rfl⟩
    · exact ⟨task, hm, rfl, rfl⟩
  constructor
  · intro x hxt
    obtain ⟨y, hy, hr, -⟩ := hset x hxt
    rw [hr]
    exact hx.request y hy
  · exact hx.drawn
  · intro x hxt
    obtain ⟨y, hy, -, hl⟩ := hset x hxt
    rw [hl]
    exact hx.jtis y hy
  · intro x hxt
    obtain ⟨y, hy, -, hl⟩ := hset x hxt
    rw [hl]
    exact hx.found y hy
  · intro x hxt
    obtain ⟨y, hy, -, hl⟩ := hset x hxt
    rw [hl]
    exact hx.deleted y hy
  · intro a b p p' hab ha hb hfp hfp'
    rcases getElem?_set_cases ha with ⟨-, rfl⟩ | ⟨-, ha⟩
    · exact .inl ⟨e, rfl⟩
    · rcases getElem?_set_cases hb with ⟨-, rfl⟩ | ⟨-, hb⟩
      · exact .inr ⟨e, rfl⟩
      · exact hx.single a b p p' hab ha hb hfp hfp'

private theorem apart_change (hx : Apart t ⟨s, tasks⟩) (hp : s.Passes s') :
    Apart t ⟨s', tasks⟩ where
  request := hx.request
  drawn := by
    change t.jti ∈ s'.drawn
    rw [hp.drawn]
    exact hx.drawn
  jtis := hx.jtis
  found := by
    change ∀ task ∈ tasks, ∀ row, _ → ∀ r ∈ s'.tokens.rows, _
    rw [hp.tokens]
    exact hx.found
  deleted := by
    change ∀ task ∈ tasks, _ → ∀ r ∈ s'.tokens.rows, _
    rw [hp.tokens]
    exact hx.deleted
  single := hx.single

/-- A step of the service in which the token is the one presented, and no lookup succeeds while
another call holds it. -/
def ExclusiveStep (env : AuthEnv) (t : RefreshPayload) (x : AuthStage) (l : AuthLabel)
    (y : AuthStage) : Prop := (authServer env).Step x l y ∧ Presents t l ∧ Exclusive x l

private theorem apart_step (x : AuthStage) (l : AuthLabel) (y : AuthStage)
    (hx : Apart t x ∧ ∀ task ∈ x.tasks, (contract env).Kept task)
    (h : ExclusiveStep env t x l y) :
    Apart t y ∧ ∀ task ∈ y.tasks, (contract env).Kept task := by
  obtain ⟨hstep, hpresents, hexcl⟩ := h
  refine ⟨?_, (contract env).kept_step x l y hx.2 hstep⟩
  cases hstep with
  | begin q => exact apart_begin hx.1 (hpresents q rfl) _
  | act hi he => exact apart_act env hx.1 hx.2 hi he hexcl
  | crash e hi _ => exact apart_crash hx.1 hi e
  | change hc => exact apart_change hx.1 hc

/-- If no lookup finds the row while another call holds it, at most one call returns a pair. -/
theorem spent_at_most_once (hdrawn : t.jti ∈ s.drawn)
    {trace : List (AuthLabel × AuthStage)} {y : AuthStage}
    (h : Run (ExclusiveStep env t) ⟨s, []⟩ trace y) {i j : Nat} {p q : AuthTask}
    {reply reply' : AuthReply} (hi : y.tasks[i]? = some p) (hj : y.tasks[j]? = some q)
    (hp : p.rest = .ret reply) (hq : q.rest = .ret reply') : i = j := by
  have hstart : Apart t ⟨s, []⟩ :=
    ⟨by simp, hdrawn, by simp, by simp, by simp, by simp⟩
  obtain ⟨hy, hkept⟩ := h.invariant ⟨hstart, by simp⟩ (apart_step env)
  have hfound : ∀ p ∈ y.tasks, ∀ reply, p.rest = .ret reply →
      ∃ row, FoundRow p.log (.signed t) row := by
    intro p hm reply hret
    have hk := hkept p hm
    unfold Server.Contract.Kept at hk
    rw [hret] at hk
    have hc : Completed (.signed t) p.log := hk (.signed t) (hy.request p hm)
    exact hc.found
  by_contra hij
  have hfp := hfound p (List.mem_of_getElem? hi) reply hp
  have hfq := hfound q (List.mem_of_getElem? hj) reply' hq
  rcases hy.single i j p q hij hi hj hfp hfq with ⟨e, he⟩ | ⟨e, he⟩
  · rw [hp] at he
    cases he
  · rw [hq] at he
    cases he

end Invariant

section Sample

private def sampleUser : AuthUser :=
  { id := "u", email := "a@b.c", password := "hash of pw", firstName := "A", lastName := "B" }

private def sampleToken : RefreshPayload := ⟨"u", "j", 604900⟩

private def sampleRow : RefreshRow := ⟨"r", sampleToken, "u", 604900⟩

private def sampleStore : AuthStore where
  users := ⟨[sampleUser], by decide⟩
  valid := by simp [sampleUser, AuthUser.Valid]
  tokens := ⟨[sampleRow], by decide⟩
  unique := by decide
  owner := by simp [sampleRow, sampleUser]
  redis := fun _ => none
  clock := 100
  drawn := ["j"]

private def sampleRequest : AuthRequest × RequestInfo :=
  (.refresh (.signed sampleToken), ⟨"f", "1.2.3.4", "agent", none⟩)

private theorem presents_act {t : RefreshPayload} {i : Nat} {c : AuthCall} {r : c.Answer} :
    Presents t (.act i c r) := by
  intro q h
  cases h

/-- Both calls look the row up before either deletes it; both return a new pair. -/
theorem two_refreshes_succeed :
    Reaches (fun x l y => (authServer .sample).Step x l y ∧ Presents sampleToken l)
      ⟨sampleStore, []⟩ fun y => ∃ p q pair pair', y.tasks[0]? = some p ∧ y.tasks[1]? = some q ∧
        p.rest = .ret (.tokens pair none) ∧ q.rest = .ret (.tokens pair' none) := by
  apply Reaches.next ⟨.begin sampleRequest, by simp [Presents, sampleRequest]⟩
  apply Reaches.next ⟨.begin sampleRequest, by simp [Presents, sampleRequest]⟩
  apply Reaches.next ⟨.act (I := authInterface) (i := 0) (c := AuthCall.now) (r := (100 : Nat)) rfl
    (.inl ⟨rfl, rfl⟩), presents_act⟩
  apply Reaches.next ⟨.act (I := authInterface) (i := 0) (c := AuthCall.redisConnect) (r := .ok ()) rfl
    (.inl ⟨rfl, rfl⟩), presents_act⟩
  apply Reaches.next ⟨.act (I := authInterface) (i := 0) (c := AuthCall.redisGet (.refreshUsed "j"))
    (r := .ok none) rfl (.inl ⟨rfl, .inl rfl⟩), presents_act⟩
  apply Reaches.next ⟨.act (I := authInterface) (i := 0) (c := AuthCall.findRefreshToken (.signed sampleToken))
    (r := .ok (some (sampleRow, sampleUser))) rfl (.inl ⟨rfl, rfl⟩), presents_act⟩
  apply Reaches.next ⟨.act (I := authInterface) (i := 1) (c := AuthCall.now) (r := (100 : Nat)) rfl
    (.inl ⟨rfl, rfl⟩), presents_act⟩
  apply Reaches.next ⟨.act (I := authInterface) (i := 1) (c := AuthCall.redisConnect) (r := .ok ()) rfl
    (.inl ⟨rfl, rfl⟩), presents_act⟩
  apply Reaches.next ⟨.act (I := authInterface) (i := 1) (c := AuthCall.redisGet (.refreshUsed "j"))
    (r := .ok none) rfl (.inl ⟨rfl, .inl rfl⟩), presents_act⟩
  apply Reaches.next ⟨.act (I := authInterface) (i := 1) (c := AuthCall.findRefreshToken (.signed sampleToken))
    (r := .ok (some (sampleRow, sampleUser))) rfl (.inl ⟨rfl, rfl⟩), presents_act⟩
  apply Reaches.next ⟨.act (I := authInterface) (i := 1) (c := AuthCall.now) (r := (100 : Nat)) rfl
    (.inl ⟨rfl, rfl⟩), presents_act⟩
  apply Reaches.next ⟨.act (I := authInterface) (i := 1) (c := AuthCall.deleteTokenRow "r") (r := .ok ()) rfl
    (.inl ⟨rfl, rfl⟩), presents_act⟩
  apply Reaches.next ⟨.act (I := authInterface) (i := 1) (c := AuthCall.now) (r := (100 : Nat)) rfl
    (.inl ⟨rfl, rfl⟩), presents_act⟩
  apply Reaches.next ⟨.act (I := authInterface) (i := 1) (c := AuthCall.redisSet (.refreshUsed "j") .one 604800)
    (r := .ok ()) rfl (.inl ⟨rfl, rfl⟩), presents_act⟩
  apply Reaches.next ⟨.act (I := authInterface) (i := 1) (c := AuthCall.randomUUID) (r := "j1") rfl
    (.inl ⟨by decide, by decide, rfl⟩), presents_act⟩
  apply Reaches.next ⟨.act (I := authInterface) (i := 1) (c := AuthCall.now) (r := (100 : Nat)) rfl
    (.inl ⟨rfl, rfl⟩), presents_act⟩
  apply Reaches.next ⟨.act (I := authInterface) (i := 1) (c := AuthCall.createRefreshToken ⟨"u", "j1", 604900⟩ "u" 604900)
    (r := .ok ()) rfl
    (.inl (.inr ⟨"r1", by decide, by decide, ⟨sampleUser, by decide, rfl⟩, rfl, rfl⟩)), presents_act⟩
  apply Reaches.next ⟨.act (I := authInterface) (i := 0) (c := AuthCall.now) (r := (100 : Nat)) rfl
    (.inl ⟨rfl, rfl⟩), presents_act⟩
  apply Reaches.next ⟨.act (I := authInterface) (i := 0) (c := AuthCall.deleteTokenRow "r") (r := .ok ()) rfl
    (.inl ⟨rfl, rfl⟩), presents_act⟩
  apply Reaches.next ⟨.act (I := authInterface) (i := 0) (c := AuthCall.now) (r := (100 : Nat)) rfl
    (.inl ⟨rfl, rfl⟩), presents_act⟩
  apply Reaches.next ⟨.act (I := authInterface) (i := 0) (c := AuthCall.redisSet (.refreshUsed "j") .one 604800)
    (r := .ok ()) rfl (.inl ⟨rfl, rfl⟩), presents_act⟩
  apply Reaches.next ⟨.act (I := authInterface) (i := 0) (c := AuthCall.randomUUID) (r := "j0") rfl
    (.inl ⟨by decide, by decide, rfl⟩), presents_act⟩
  apply Reaches.next ⟨.act (I := authInterface) (i := 0) (c := AuthCall.now) (r := (100 : Nat)) rfl
    (.inl ⟨rfl, rfl⟩), presents_act⟩
  apply Reaches.next ⟨.act (I := authInterface) (i := 0) (c := AuthCall.createRefreshToken ⟨"u", "j0", 604900⟩ "u" 604900)
    (r := .ok ()) rfl
    (.inl (.inr ⟨"r0", by decide, by decide, ⟨sampleUser, by decide, rfl⟩, rfl, rfl⟩)), presents_act⟩
  exact .here ⟨_, _, _, _, rfl, rfl, rfl, rfl⟩

private theorem exclusive_act {x : AuthStage} {i : Nat} {c : AuthCall} {r : c.Answer}
    (h : ∀ token, c ≠ .findRefreshToken token) : Exclusive x (.act i c r) := by
  intro j token found he
  simp only [StageLabel.act.injEq] at he
  exact (h token he.2.1).elim

private theorem alone_run : Reaches (ExclusiveStep .sample sampleToken) ⟨sampleStore, []⟩
    fun y => ∃ p q pair e, y.tasks[0]? = some p ∧ y.tasks[1]? = some q ∧
      p.rest = .ret (.tokens pair none) ∧ q.rest = .raise e := by
  apply Reaches.next ⟨.begin sampleRequest, by simp [Presents, sampleRequest], by simp [Exclusive]⟩
  apply Reaches.next ⟨.begin sampleRequest, by simp [Presents, sampleRequest], by simp [Exclusive]⟩
  apply Reaches.next ⟨.act (I := authInterface) (i := 0) (c := AuthCall.now)
    (r := (100 : Nat)) rfl (.inl ⟨rfl, rfl⟩), presents_act, exclusive_act (by simp)⟩
  apply Reaches.next ⟨.act (I := authInterface) (i := 0) (c := AuthCall.redisConnect)
    (r := .ok ()) rfl (.inl ⟨rfl, rfl⟩), presents_act, exclusive_act (by simp)⟩
  apply Reaches.next ⟨.act (I := authInterface) (i := 0) (c := AuthCall.redisGet (.refreshUsed "j"))
    (r := .ok none) rfl (.inl ⟨rfl, .inl rfl⟩), presents_act, exclusive_act (by simp)⟩
  apply Reaches.next ⟨.act (I := authInterface) (i := 0) (c := AuthCall.findRefreshToken (.signed sampleToken))
    (r := .ok (some (sampleRow, sampleUser))) rfl (.inl ⟨rfl, rfl⟩), presents_act, by simp [Exclusive, Holding, lookedUp]⟩
  apply Reaches.next ⟨.act (I := authInterface) (i := 1) (c := AuthCall.now)
    (r := (100 : Nat)) rfl (.inl ⟨rfl, rfl⟩), presents_act, exclusive_act (by simp)⟩
  apply Reaches.next ⟨.act (I := authInterface) (i := 1) (c := AuthCall.redisConnect)
    (r := .ok ()) rfl (.inl ⟨rfl, rfl⟩), presents_act, exclusive_act (by simp)⟩
  apply Reaches.next ⟨.act (I := authInterface) (i := 1) (c := AuthCall.redisGet (.refreshUsed "j"))
    (r := .ok none) rfl (.inl ⟨rfl, .inl rfl⟩), presents_act, exclusive_act (by simp)⟩
  apply Reaches.next ⟨.act (I := authInterface) (i := 0) (c := AuthCall.now)
    (r := (100 : Nat)) rfl (.inl ⟨rfl, rfl⟩), presents_act, exclusive_act (by simp)⟩
  apply Reaches.next ⟨.act (I := authInterface) (i := 0) (c := AuthCall.deleteTokenRow "r")
    (r := .ok ()) rfl (.inl ⟨rfl, rfl⟩), presents_act, exclusive_act (by simp)⟩
  apply Reaches.next ⟨.act (I := authInterface) (i := 1) (c := AuthCall.findRefreshToken (.signed sampleToken))
    (r := .ok none) rfl (.inl ⟨rfl, rfl⟩), presents_act, by simp [Exclusive]⟩
  apply Reaches.next ⟨.act (I := authInterface) (i := 1) (c := AuthCall.deleteTokensOf "u")
    (r := .ok ()) rfl (.inl ⟨rfl, rfl⟩), presents_act, exclusive_act (by simp)⟩
  apply Reaches.next ⟨.act (I := authInterface) (i := 0) (c := AuthCall.now)
    (r := (100 : Nat)) rfl (.inl ⟨rfl, rfl⟩), presents_act, exclusive_act (by simp)⟩
  apply Reaches.next ⟨.act (I := authInterface) (i := 0) (c := AuthCall.redisSet (.refreshUsed "j") .one 604800)
    (r := .ok ()) rfl (.inl ⟨rfl, rfl⟩), presents_act, exclusive_act (by simp)⟩
  apply Reaches.next ⟨.act (I := authInterface) (i := 0) (c := AuthCall.randomUUID)
    (r := "j0") rfl (.inl ⟨by decide, by decide, rfl⟩), presents_act, exclusive_act (by simp)⟩
  apply Reaches.next ⟨.act (I := authInterface) (i := 0) (c := AuthCall.now)
    (r := (100 : Nat)) rfl (.inl ⟨rfl, rfl⟩), presents_act, exclusive_act (by simp)⟩
  apply Reaches.next ⟨.act (I := authInterface) (i := 0) (c := AuthCall.createRefreshToken ⟨"u", "j0", 604900⟩ "u" 604900)
    (r := .ok ()) rfl (.inl (.inr ⟨"r0", by decide, by decide, ⟨sampleUser, by decide, rfl⟩, rfl, rfl⟩)), presents_act, exclusive_act (by simp)⟩
  exact .here ⟨_, _, _, _, rfl, rfl, rfl, rfl⟩

/-- The first of two overlapping calls returns a pair, the second is refused. -/
theorem spent_at_most_once_alone : ∃ trace y,
    Run (ExclusiveStep .sample sampleToken) ⟨sampleStore, []⟩ trace y ∧
    (∃ p q pair e, y.tasks[0]? = some p ∧ y.tasks[1]? = some q ∧
      p.rest = .ret (.tokens pair none) ∧ q.rest = .raise e) ∧
    ∀ (i : Nat) p reply, y.tasks[i]? = some p → p.rest = .ret reply → i = 0 := by
  obtain ⟨trace, y, hrun, p, q, pair, e, hp, hq, hret, hraise⟩ := alone_run
  refine ⟨trace, y, hrun, ⟨p, q, pair, e, hp, hq, hret, hraise⟩, fun i task reply hi hret' => ?_⟩
  exact spent_at_most_once .sample (by decide) hrun hi hp hret' hret

end Sample

end Rotation

end CloudVM
