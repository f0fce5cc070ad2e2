import CloudVM.Sessions.Connect
import Mathlib.Data.List.Basic

/-!
# Attempts and the sessions of others

An old attempt can end the session of a later one, since every handler cleans up by the id of the
socket. It cannot where each session opens only after all earlier attempts of its socket are over.
-/

namespace CloudVM.Terminal

section Order

/-- The way `s` was started before `s'`. -/
def Connection.Precedes (c : Connection) (s s' : AttemptStage) : Prop :=
  c.stages.idxOf s < c.stages.idxOf s'

instance (c : Connection) (s s' : AttemptStage) : Decidable (c.Precedes s s') :=
  inferInstanceAs (Decidable (_ < _))

theorem Connection.Precedes.mem {c : Connection} {s s' : AttemptStage} (h : c.Precedes s s') :
    s ∈ c.stages := by
  have hle : c.stages.idxOf s' ≤ c.stages.length := List.idxOf_le_length
  exact List.idxOf_lt_length_iff.mp (Nat.lt_of_lt_of_le h hle)

theorem Connection.Precedes.of_isPrefix {c c' : Connection} {s s' : AttemptStage}
    (hc : c.stages <+: c'.stages) (hs' : s' ∈ c.stages) (h : c'.Precedes s s') :
    c.Precedes s s' := by
  obtain ⟨rest, hrest⟩ := hc
  unfold Precedes at *
  rw [← hrest, List.idxOf_append_of_mem hs'] at h
  by_cases hs : s ∈ c.stages
  · rwa [List.idxOf_append_of_mem hs] at h
  · rw [List.idxOf_append_of_notMem hs] at h
    have hlt := List.idxOf_lt_length_iff.mpr hs'
    omega

end Order

section Growth

/-- What can call back is what could before, of the way `s`, or of a way just started. -/
structure Connection.Grows (s : AttemptStage) (c c' : Connection) : Prop where
  stages : c.stages <+: c'.stages
  outstanding : ∀ src ∈ c'.outstanding,
    src ∈ c.outstanding ∨ src.stage = s ∨ src.stage ∉ c.stages

namespace Connection.Grows

variable {s : AttemptStage} {c c' c'' : Connection} {settings : ConnectSettings}

theorem refl : Grows s c c := ⟨List.prefix_rfl, fun _ h => .inl h⟩

theorem drop (h : Grows s c c') (src : Source) : Grows s c (c'.drop src) where
  stages := h.stages
  outstanding src' hs := h.outstanding src' (Finset.mem_of_mem_erase hs)

theorem await (h : Grows s c c') {src : Source} (hs : src.stage = s ∨ src.stage ∉ c.stages) :
    Grows s c (c'.await src) where
  stages := by
    simp only [Connection.await]
    split
    · exact h.stages
    · exact h.stages.trans (List.prefix_append _ _)
  outstanding src' hs' := by
    rcases Finset.mem_insert.mp hs' with rfl | hs'
    · exact .inr hs
    · exact h.outstanding src' hs'

theorem clearConnectTimeout (h : Grows s c c') : Grows s c c'.clearConnectTimeout := by
  unfold Connection.clearConnectTimeout
  split
  · exact h
  · rename_i t _
    exact ⟨(h.drop (.timer t)).stages, (h.drop (.timer t)).outstanding⟩

theorem setConnectTimeout (h : Grows s c c') {s' : AttemptStage} (hs : s' = s ∨ s' ∉ c.stages) :
    Grows s c (c'.setConnectTimeout s') := by
  have hw := @await _ _ _ h (.timer s') hs
  exact ⟨hw.stages, hw.outstanding⟩

theorem endClient (h : Grows s c c') {k : ClientKind} (hk : k.stage = s) :
    Grows s c (c'.endClient k) := by
  unfold Connection.endClient
  split
  · exact (h.drop _).await (.inl hk)
  · exact h

theorem tryBastionFallback (h : Grows .direct c c')
    (hc : c'.tryBastionFallback settings = some c'') : Grows .direct c c'' := by
  unfold Connection.tryBastionFallback at hc
  split at hc
  · cases hc
  · rename_i hn
    obtain rfl := Option.some.inj hc
    simp only [hasAttemptedBastionFallback, Bool.or_eq_true, decide_eq_true_eq, not_or] at hn
    have hnew : AttemptStage.bastion ∉ c.stages := fun hm => hn.1 (h.stages.subset hm)
    have hend := h.endClient (k := .direct) rfl
    have hhand : (Source.handshake .bastion).stage ∉ c.stages := hnew
    exact (hend.await (.inr hhand)).setConnectTimeout (.inr hnew)

theorem tryPasswordOnlyRetry (h : Grows .direct c c')
    (hc : c'.tryPasswordOnlyRetry settings = some c'') : Grows .direct c c'' := by
  unfold Connection.tryPasswordOnlyRetry at hc
  split at hc
  · cases hc
  · rename_i hn
    obtain rfl := Option.some.inj hc
    simp only [hasAttemptedPasswordRetry, Bool.or_eq_true, decide_eq_true_eq, not_or] at hn
    have hnew : AttemptStage.retry ∉ c.stages := fun hm => hn.1.1.1.1 (h.stages.subset hm)
    have hend := h.endClient (k := .direct) rfl
    have hhand : (Source.handshake .retry).stage ∉ c.stages := hnew
    exact (hend.await (.inr hhand)).setConnectTimeout (.inr hnew)

end Connection.Grows

namespace Connection

variable {settings : ConnectSettings} {c c' : Connection} {e : Effect ClientKind}

private theorem ready_grows (k : ClientKind) : Grows k.stage c (c.ready k) := by
  have hend := (Grows.refl (c := c)).endClient (k := k) rfl
  simp only [ready]
  split
  · rename_i hk
    subst hk
    exact hend.await (.inl rfl)
  · exact hend.clearConnectTimeout.await (.inl rfl)

private theorem error_grows {k : ClientKind} {message : String}
    (h : c.error settings k message = (c', e)) : Grows k.stage c c' := by
  have hclear := ((Grows.refl (c := c)).endClient (k := k) rfl).clearConnectTimeout
  simp only [error] at h
  split at h
  · rename_i hk
    subst hk
    split at h
    · rename_i hsome
      obtain ⟨rfl, -⟩ := Prod.mk.inj h
      rcases Option.or_eq_some_iff.mp hsome with hr | ⟨-, hb⟩
      · split at hr
        · exact hclear.tryPasswordOnlyRetry hr
        · cases hr
      · split at hb
        · exact hclear.tryBastionFallback hb
        · cases hb
    · obtain ⟨rfl, -⟩ := Prod.mk.inj h
      exact hclear
  · obtain ⟨rfl, -⟩ := Prod.mk.inj h
    exact hclear

private theorem close_grows {k : ClientKind} (h : c.close k = (c', e)) : Grows k.stage c c' := by
  have hdrop := ((Grows.refl (s := k.stage) (c := c)).drop (.handshake k)).drop (.client k)
  simp only [close] at h
  split at h
  · obtain ⟨rfl, -⟩ := Prod.mk.inj h
    exact hdrop
  · obtain ⟨rfl, -⟩ := Prod.mk.inj h
    exact hdrop.clearConnectTimeout

private theorem timeout_grows {s : AttemptStage} (h : c.timeout settings s = (c', e)) :
    Grows s c c' := by
  have hdrop := (Grows.refl (s := s) (c := c)).drop (.timer s)
  simp only [timeout] at h
  split at h
  · rename_i hs
    subst hs
    split at h
    · rename_i hb
      obtain ⟨rfl, -⟩ := Prod.mk.inj h
      exact hdrop.tryBastionFallback hb
    · obtain ⟨rfl, -⟩ := Prod.mk.inj h
      exact hdrop
  · obtain ⟨rfl, -⟩ := Prod.mk.inj h
    exact hdrop

/-- The callbacks of one way leave the sources of the other ways started before as they are. -/
theorem handle_grows {cb : SshCallback} (h : c.handle settings cb = some (c', e)) :
    Grows cb.stage c c' := by
  have hrefl : Grows cb.stage c c := .refl
  cases cb with
  | ready k =>
    simp only [handle, Option.ite_none_right_eq_some, Option.some.injEq, Prod.mk.injEq] at h
    obtain ⟨-, rfl, -⟩ := h
    exact ready_grows k
  | error k message =>
    simp only [handle, Option.ite_none_right_eq_some, Option.some.injEq] at h
    exact error_grows h.2
  | close k =>
    simp only [handle, Option.ite_none_right_eq_some, Option.some.injEq] at h
    exact close_grows h.2
  | forwarded ok =>
    simp only [handle, Option.ite_none_right_eq_some] at h
    obtain ⟨-, h⟩ := h
    split at h
    · obtain ⟨rfl, -⟩ := Prod.mk.inj (Option.some.inj h)
      exact (hrefl.drop .forwardOut).await (.inl rfl)
    · obtain ⟨rfl, -⟩ := Prod.mk.inj (Option.some.inj h)
      exact hrefl.drop .forwardOut
  | shellOpened k ok =>
    simp only [handle, Option.ite_none_right_eq_some] at h
    obtain ⟨-, h⟩ := h
    split at h
    · obtain ⟨rfl, -⟩ := Prod.mk.inj (Option.some.inj h)
      exact (hrefl.drop (.shell k)).await (.inl rfl)
    · obtain ⟨rfl, -⟩ := Prod.mk.inj (Option.some.inj h)
      exact hrefl.drop (.shell k)
  | data k =>
    simp only [handle, Option.ite_none_right_eq_some, Option.some.injEq, Prod.mk.injEq] at h
    obtain ⟨-, rfl, -⟩ := h
    exact hrefl
  | streamClosed k =>
    simp only [handle, Option.ite_none_right_eq_some, Option.some.injEq, Prod.mk.injEq] at h
    obtain ⟨-, rfl, -⟩ := h
    exact hrefl.drop (.stream k)
  | timeout s =>
    simp only [handle, Option.ite_none_right_eq_some, Option.some.injEq] at h
    exact timeout_grows h.2

theorem handle_outstanding {cb : SshCallback} (h : c.handle settings cb = some (c', e)) :
    ∃ src ∈ c.outstanding, src.stage = cb.stage := by
  cases cb with
  | ready k =>
    simp only [handle, Option.ite_none_right_eq_some] at h
    exact ⟨.handshake k, h.1, rfl⟩
  | error k message =>
    simp only [handle, Option.ite_none_right_eq_some] at h
    rcases h.1 with hk | hk
    · exact ⟨.handshake k, hk, rfl⟩
    · exact ⟨.client k, hk, rfl⟩
  | close k =>
    simp only [handle, Option.ite_none_right_eq_some] at h
    rcases h.1 with hk | hk
    · exact ⟨.handshake k, hk, rfl⟩
    · exact ⟨.client k, hk, rfl⟩
  | forwarded ok =>
    simp only [handle, Option.ite_none_right_eq_some] at h
    exact ⟨.forwardOut, h.1, rfl⟩
  | shellOpened k ok =>
    simp only [handle, Option.ite_none_right_eq_some] at h
    exact ⟨.shell k, h.1, rfl⟩
  | data k =>
    simp only [handle, Option.ite_none_right_eq_some] at h
    exact ⟨.stream k, h.1, rfl⟩
  | streamClosed k =>
    simp only [handle, Option.ite_none_right_eq_some] at h
    exact ⟨.stream k, h.1, rfl⟩
  | timeout s =>
    simp only [handle, Option.ite_none_right_eq_some] at h
    exact ⟨.timer s, h.1, rfl⟩

private theorem error_effect {k : ClientKind} {message : String} :
    (c.error settings k message).2 = .keep ∨ (c.error settings k message).2 = .cleanup := by
  simp only [error]
  split
  · split <;> simp
  · simp

private theorem timeout_effect {s : AttemptStage} :
    (c.timeout settings s).2 = .keep ∨ (c.timeout settings s).2 = .cleanup := by
  simp only [timeout]
  split
  · split <;> simp
  · simp

theorem handle_effect {cb : SshCallback} (h : c.handle settings cb = some (c', e)) :
    e = .keep ∨ e = .cleanup ∨
      ∃ k, cb = .shellOpened k true ∧ .shell k ∈ c.outstanding ∧ e = .register k := by
  have hpair : ∀ {out : Connection × Effect ClientKind}, out.2 = .keep ∨ out.2 = .cleanup →
      out = (c', e) → e = .keep ∨ e = .cleanup ∨
        ∃ k, cb = .shellOpened k true ∧ .shell k ∈ c.outstanding ∧ e = .register k := by
    rintro out hout rfl
    exact hout.imp_right .inl
  cases cb with
  | ready k =>
    simp only [handle, Option.ite_none_right_eq_some, Option.some.injEq] at h
    exact hpair (.inl rfl) h.2
  | error k message =>
    simp only [handle, Option.ite_none_right_eq_some, Option.some.injEq] at h
    exact hpair error_effect h.2
  | close k =>
    simp only [handle, Option.ite_none_right_eq_some, Option.some.injEq] at h
    exact hpair (c.close_effect k) h.2
  | forwarded ok =>
    simp only [handle, Option.ite_none_right_eq_some] at h
    obtain ⟨-, h⟩ := h
    split at h
    · exact hpair (.inl rfl) (Option.some.inj h)
    · exact hpair (.inr rfl) (Option.some.inj h)
  | shellOpened k ok =>
    simp only [handle, Option.ite_none_right_eq_some] at h
    obtain ⟨hk, h⟩ := h
    split at h
    · rename_i hok
      obtain ⟨-, rfl⟩ := Prod.mk.inj (Option.some.inj h)
      exact .inr (.inr ⟨k, by rw [hok], hk, rfl⟩)
    · exact hpair (.inl rfl) (Option.some.inj h)
  | data k =>
    simp only [handle, Option.ite_none_right_eq_some, Option.some.injEq] at h
    exact hpair (.inl rfl) h.2
  | streamClosed k =>
    simp only [handle, Option.ite_none_right_eq_some, Option.some.injEq] at h
    exact hpair (.inr rfl) h.2
  | timeout s =>
    simp only [handle, Option.ite_none_right_eq_some, Option.some.injEq] at h
    exact hpair timeout_effect h.2

end Connection

end Growth

section Sessions

variable (settings : ConnectSettings) (input : Settings)

/-- Nothing that belongs to the attempt calls back any more. -/
def Attempt.Over : Attempt → Prop
  | .lookup _ _ => False
  | .refused => True
  | .connecting c => c.outstanding = ∅

/-- The callback belongs to an attempt that is older than the one whose client is given: to an
earlier request, or to an earlier way of the same request. -/
def Earlier (x : Seat TerminalSeat Attempt) (i : ℕ) (cb : Callback) (j : ℕ) (k : ClientKind) :
    Prop :=
  i < j ∨ (i = j ∧ ∃ c s, x.attempts[j]? = some (.connecting c) ∧ cb = .ssh s ∧
    c.Precedes s.stage k.stage)

/-- An event that belongs to an older attempt leaves the session and its counters as they are. -/
def Untouched (x : Seat TerminalSeat Attempt)
    (e : SocketEvent Unit TerminalRequest Callback) : Prop :=
  ∀ i cb j k y, e = .calls i cb → x.data.session = some (j, k) → Earlier x i cb j k →
    (terminalGateway settings input).after x e = some y → y.data = x.data

/-- A shell opens only after all older attempts are over. -/
def OpensAlone (x : Seat TerminalSeat Attempt)
    (e : SocketEvent Unit TerminalRequest Callback) : Prop :=
  ∀ i k c, e = .calls i (.ssh (.shellOpened k true)) → x.attempts[i]? = some (.connecting c) →
    .shell k ∈ c.outstanding →
    (∀ j < i, ∀ a, x.attempts[j]? = some a → a.Over) ∧
      ∀ src ∈ c.outstanding, ¬ c.Precedes src.stage k.stage

/-- The attempts older than the one that holds the session are over. -/
def Alone (x : Seat TerminalSeat Attempt) : Prop :=
  ∀ j k, x.data.session = some (j, k) →
    (∀ i < j, ∀ a, x.attempts[i]? = some a → a.Over) ∧
      ∃ c, x.attempts[j]? = some (.connecting c) ∧ k.stage ∈ c.stages ∧
        ∀ src ∈ c.outstanding, ¬ c.Precedes src.stage k.stage

variable {settings input}

theorem Attempt.Over.handle {a a' : Attempt} {cb : Callback} {e : Effect ClientKind} (h : a.Over) :
    a.handle settings cb ≠ some (a', e) := by
  intro hh
  cases a with
  | lookup payload caller => exact h
  | refused => cases cb <;> simp [Attempt.handle] at hh
  | connecting c =>
    cases cb with
    | replied row connects => simp [Attempt.handle] at hh
    | ssh cb =>
      simp only [Attempt.handle, Option.map_eq_some_iff] at hh
      obtain ⟨⟨c', e'⟩, hc, -⟩ := hh
      obtain ⟨src, hsrc, -⟩ := Connection.handle_outstanding hc
      have hempty : c.outstanding = ∅ := h
      simp [hempty] at hsrc

theorem Attempt.handle_connecting {c : Connection} {a' : Attempt} {cb : Callback}
    {e : Effect ClientKind} (h : (Attempt.connecting c).handle settings cb = some (a', e)) :
    ∃ s c', cb = .ssh s ∧ c.handle settings s = some (c', e) ∧ a' = .connecting c' := by
  cases cb with
  | replied row connects => simp [Attempt.handle] at h
  | ssh s =>
    simp only [Attempt.handle, Option.map_eq_some_iff, Prod.mk.injEq] at h
    obtain ⟨⟨c', e'⟩, hc, rfl, rfl⟩ := h
    exact ⟨s, c', rfl, hc, rfl⟩

/-- Where the older attempts are over, no callback belongs to one. -/
theorem Alone.untouched {x : Seat TerminalSeat Attempt}
    {e : SocketEvent Unit TerminalRequest Callback} (h : Alone x) :
    Untouched settings input x e := by
  intro i cb j k y he hs hearlier hy
  subst he
  exfalso
  obtain ⟨hover, c, hc, hk, hnone⟩ := h j k hs
  rcases Gateway.after_cases hy with ⟨q, hq, -⟩ | ⟨hq, -⟩ | ⟨r, hq, -⟩ |
    ⟨i', cb', a, a', f, hq, ha, hf, -⟩
  · cases hq
  · cases hq
  · cases hq
  · obtain ⟨rfl, rfl⟩ : i = i' ∧ cb = cb' := by simpa using hq
    rcases hearlier with hlt | ⟨rfl, c', s, hc', rfl, hp⟩
    · exact (hover i hlt a ha).handle hf
    · obtain rfl : c = c' := by simpa [hc] using hc'
      obtain rfl : Attempt.connecting c = a := by simpa [hc] using ha
      have hf : (Attempt.connecting c).handle settings (.ssh s) = some (a', f) := hf
      obtain ⟨s', c'', hs', hc'', -⟩ := Attempt.handle_connecting hf
      obtain rfl : s = s' := by simpa using hs'
      obtain ⟨src, hsrc, hstage⟩ := Connection.handle_outstanding hc''
      exact hnone src hsrc (hstage ▸ hp)

theorem alone_of_session_none {x : Seat TerminalSeat Attempt} (h : x.data.session = none) :
    Alone x := by
  intro j k hs
  simp [h] at hs

private theorem Alone.append {x y : Seat TerminalSeat Attempt} (h : Alone x)
    (hs : y.data.session = x.data.session) {more : List Attempt}
    (ha : y.attempts = x.attempts ++ more) : Alone y := by
  intro j k hjk
  rw [hs] at hjk
  obtain ⟨hover, c, hc, hrest⟩ := h j k hjk
  have hlt : j < x.attempts.length := (List.getElem?_eq_some_iff.mp hc).1
  rw [ha]
  constructor
  · intro i hi a hia
    rw [List.getElem?_append_left (by omega)] at hia
    exact hover i hi a hia
  · exact ⟨c, by rwa [List.getElem?_append_left hlt], hrest⟩

private theorem Alone.set {x : Seat TerminalSeat Attempt} {i : ℕ} {a a' : Attempt} {cb : Callback}
    {e : Effect ClientKind} (h : Alone x) (ha : x.attempts[i]? = some a)
    (hh : Attempt.handle settings cb a = some (a', e)) :
    Alone { x with attempts := x.attempts.set i a' } := by
  intro j k hjk
  obtain ⟨hover, c, hc, hk, hnone⟩ := h j k hjk
  have hij : ¬ i < j := fun hlt => (hover i hlt a ha).handle hh
  constructor
  · intro i' hi' b hb
    rw [List.getElem?_set_ne (by omega)] at hb
    exact hover i' hi' b hb
  · by_cases hi : i = j
    · subst hi
      have hlt : i < x.attempts.length := (List.getElem?_eq_some_iff.mp hc).1
      obtain rfl : Attempt.connecting c = a := by simpa [hc] using ha
      obtain ⟨s, c', rfl, hcc, rfl⟩ := Attempt.handle_connecting hh
      obtain ⟨hst, hout⟩ := Connection.handle_grows hcc
      obtain ⟨src', hsrc', hstage'⟩ := Connection.handle_outstanding hcc
      refine ⟨c', by simp [hlt], hst.subset hk, ?_⟩
      intro src hsrc hp
      have hback := hp.of_isPrefix hst hk
      rcases hout src hsrc with hold | hs | hnew
      · exact hnone src hold hback
      · rw [hs, ← hstage'] at hback
        exact hnone src' hsrc' hback
      · exact hnew hback.mem
    · exact ⟨c, by rwa [List.getElem?_set_ne hi], hk, hnone⟩

private theorem Alone.register {x : Seat TerminalSeat Attempt} {i : ℕ} {c c' : Connection}
    {k : ClientKind} (ha : x.attempts[i]? = some (.connecting c))
    (hh : c.handle settings (.shellOpened k true) = some (c', .register k))
    (hover : ∀ j < i, ∀ a, x.attempts[j]? = some a → a.Over)
    (hnone : ∀ src ∈ c.outstanding, ¬ c.Precedes src.stage k.stage) (d : TerminalSeat) :
    Alone ⟨x.presence, { d with session := some (i, k) }, x.attempts.set i (.connecting c')⟩ := by
  intro j k' hjk
  obtain ⟨rfl, rfl⟩ : i = j ∧ k = k' := by simpa using hjk
  have hlt : i < x.attempts.length := (List.getElem?_eq_some_iff.mp ha).1
  obtain ⟨hst, hout⟩ := Connection.handle_grows hh
  obtain ⟨src', hsrc', hstage'⟩ := Connection.handle_outstanding hh
  have hk : k.stage ∈ c.stages := by
    have hm := c.started src' hsrc'
    rwa [hstage'] at hm
  constructor
  · intro j hj a hja
    rw [List.getElem?_set_ne (by omega)] at hja
    exact hover j hj a hja
  · refine ⟨c', by simp [hlt], hst.subset hk, ?_⟩
    intro src hsrc hp
    have hback := hp.of_isPrefix hst hk
    rcases hout src hsrc with hold | hs | hnew
    · exact hnone src hold hback
    · rw [hs] at hback
      exact absurd hback (lt_irrefl _)
    · exact hnew hback.mem

private theorem receive_session (r : TerminalRequest) (d : TerminalSeat) :
    (receive input r d).data.session = d.session ∨ (receive input r d).data.session = none := by
  cases r with
  | connectSsh payload auth =>
    simp only [receive, handleConnectSsh]
    split
    · exact .inl rfl
    · split
      · exact .inl rfl
      · split
        · exact .inl rfl
        · cases auth <;> exact .inr rfl
  | input data now now' => exact .inl rfl

private theorem Alone.respond {x : Seat TerminalSeat Attempt} {r : Response TerminalSeat Attempt}
    (h : Alone x) (hr : r.data.session = x.data.session ∨ r.data.session = none) :
    Alone ((terminalGateway settings input).respond x r) := by
  by_cases hd : r.disconnects = true
  · apply alone_of_session_none
    simp [Gateway.respond, hd, terminalGateway, TerminalSeat.fresh]
  · rcases hr with hr | hr
    · have hall : ((terminalGateway settings input).respond x r).attempts =
          x.attempts ++ r.attempt.toList := by simp [Gateway.respond, hd]
      exact Alone.append h (by simpa [Gateway.respond, hd] using hr) hall
    · apply alone_of_session_none
      simpa [Gateway.respond, hd] using hr

theorem alone_after (x : Seat TerminalSeat Attempt)
    (e : SocketEvent Unit TerminalRequest Callback) (y : Seat TerminalSeat Attempt) (h : Alone x)
    (ho : OpensAlone x e) (hy : (terminalGateway settings input).after x e = some y) :
    Alone y := by
  rcases Gateway.after_cases hy with ⟨q, rfl, -, rfl⟩ | ⟨rfl, -, rfl⟩ | ⟨r, rfl, -, rfl⟩ |
    ⟨i, cb, a, a', f, rfl, ha, hf, rfl⟩
  · exact h.respond (.inr rfl)
  · exact alone_of_session_none rfl
  · exact h.respond (receive_session r x.data)
  · have hset := h.set ha hf
    cases a with
    | lookup payload caller =>
      obtain rfl : f = .keep := by
        cases cb with
        | replied row connects =>
          have hpair := Option.some.inj hf
          exact (congrArg Prod.snd hpair).symm
        | ssh cb => cases hf
      exact hset
    | refused => exact absurd hf (Attempt.Over.handle trivial)
    | connecting c =>
      obtain ⟨s, c', rfl, hc, rfl⟩ := Attempt.handle_connecting hf
      rcases Connection.handle_effect hc with rfl | rfl | ⟨k, rfl, hk, rfl⟩
      · exact hset
      · exact alone_of_session_none rfl
      · obtain ⟨hover, hnone⟩ := ho i k c rfl ha hk
        exact Alone.register ha hc hover hnone { x.data with
          socket := { x.data.socket with stream := some [] } }

/-- **Old attempts.** In a run in which every shell opens only after all older attempts of its
socket are over, no event of an older attempt touches the session of a later one. -/
theorem old_attempts_touch_nothing (settings : ConnectSettings) (input : Settings)
    {hub : String → Seat TerminalSeat Attempt}
    {trace : List ((String × SocketEvent Unit TerminalRequest Callback) ×
      (String → Seat TerminalSeat Attempt))}
    (h : Run (terminalGateway settings input).Step (fun _ => (terminalGateway settings input).start)
      trace hub)
    (ho : Along (fun h l => OpensAlone (h l.1) l.2)
      (fun _ => (terminalGateway settings input).start) trace) :
    Along (fun h l => Untouched settings input (h l.1) l.2)
      (fun _ => (terminalGateway settings input).start) trace := by
  apply Gateway.events_along (J := Alone) alone_after ?_ h ?_ ho
  · intro x e hx _
    exact hx.untouched
  · intro s
    exact alone_of_session_none rfl

private theorem opensAlone_of_ne {x : Seat TerminalSeat Attempt}
    {e : SocketEvent Unit TerminalRequest Callback}
    (h : ∀ i k, e ≠ .calls i (.ssh (.shellOpened k true))) : OpensAlone x e := by
  intro i k c he
  exact absurd he (h i k)

/-- A socket has a session and asks for a second one. The client and the stream of the first close
late, but before the second shell opens. -/
private def reconnected : List (SocketEvent Unit TerminalRequest Callback) :=
  [.connects (),
    .sends (.connectSsh ⟨some "vm-1", some "secret", none, none⟩ (.user ⟨"u", .user⟩)),
    .calls 0 (.replied (some (some runningVm)) true), .calls 0 (.ssh (.ready .direct)),
    .calls 0 (.ssh (.shellOpened .direct true)),
    .sends (.connectSsh ⟨some "vm-1", some "secret", none, none⟩ (.user ⟨"u", .user⟩)),
    .calls 1 (.replied (some (some runningVm)) true), .calls 1 (.ssh (.ready .direct)),
    .calls 0 (.ssh (.streamClosed .direct)), .calls 0 (.ssh (.close .direct)),
    .calls 1 (.ssh (.shellOpened .direct true))]

private theorem opensAlone_of_over {x : Seat TerminalSeat Attempt} {i : ℕ} {k : ClientKind}
    (hover : ∀ a ∈ x.attempts.take i, a.Over)
    (honly : ∀ c, x.attempts[i]? = some (.connecting c) → ∀ src ∈ c.outstanding,
      ¬ c.Precedes src.stage k.stage) :
    OpensAlone x (.calls i (.ssh (.shellOpened k true))) := by
  intro i' k' c he hc _
  obtain ⟨rfl, rfl⟩ : i = i' ∧ k = k' := by simpa using he
  refine ⟨fun j hj a ha => hover a ?_, honly c hc⟩
  rw [List.mem_take_iff_getElem]
  obtain ⟨hlt, rfl⟩ := List.getElem?_eq_some_iff.mp ha
  exact ⟨j, by omega, rfl⟩

instance : DecidablePred Attempt.Over := fun
  | .lookup _ _ => .isFalse id
  | .refused => .isTrue trivial
  | .connecting c => inferInstanceAs (Decidable (c.outstanding = ∅))

/-- A second session, after a first one whose end is reported late. -/
theorem old_attempts_touch_nothing_first :
    ∃ (settings : ConnectSettings) (input : Settings) (hub : String → Seat TerminalSeat Attempt)
      (trace : List ((String × SocketEvent Unit TerminalRequest Callback) ×
        (String → Seat TerminalSeat Attempt))),
      Run (terminalGateway settings input).Step
        (fun _ => (terminalGateway settings input).start) trace hub ∧
      (hub "s").data.session = some (1, .direct) ∧
      (∃ c, (hub "s").attempts[0]? = some (.connecting c) ∧ c.outstanding = ∅) ∧
      Along (fun h l => Untouched settings input (h l.1) l.2)
        (fun _ => (terminalGateway settings input).start) trace := by
  let settings : ConnectSettings := ⟨none, false, "", fun _ => none⟩
  let input : Settings := ⟨.audit, 3, by decide⟩
  let gateway := terminalGateway settings input
  have hfirst : ∀ c : Connection, c.outstanding = {.client .direct, .shell .direct} →
      ∀ src ∈ c.outstanding, ¬ c.Precedes src.stage ClientKind.direct.stage := by
    intro c hc src hsrc
    rw [hc] at hsrc
    rcases Finset.mem_insert.mp hsrc with rfl | hsrc
    · exact lt_irrefl _
    · rw [Finset.mem_singleton.mp hsrc]
      exact lt_irrefl _
  have hpasses : ∃ y, gateway.Passes OpensAlone gateway.start reconnected y ∧
      y.data.session = some (1, .direct) ∧
      ∃ c, y.attempts[0]? = some (.connecting c) ∧ c.outstanding = ∅ := by
    refine ⟨_, ⟨opensAlone_of_ne (by simp), _, rfl, opensAlone_of_ne (by simp), _, rfl,
      opensAlone_of_ne (by simp), _, rfl, opensAlone_of_ne (by simp), _, rfl, ?first, _, rfl,
      opensAlone_of_ne (by simp), _, rfl, opensAlone_of_ne (by simp), _, rfl,
      opensAlone_of_ne (by simp), _, rfl, opensAlone_of_ne (by simp), _, rfl,
      opensAlone_of_ne (by simp), _, rfl, ?second, _, rfl, rfl⟩, rfl, ?ended⟩
    case first | second =>
      apply opensAlone_of_over (by decide)
      intro c hc
      obtain rfl := Attempt.connecting.inj (Option.some.inj hc)
      exact hfirst _ (by decide)
    case ended => exact ⟨_, rfl, by decide⟩
  obtain ⟨y, hy, hsession, hover⟩ := hpasses
  obtain ⟨trace, hub, h, ho, rfl⟩ :=
    Gateway.Passes.exists_run "s" (fun _ => gateway.start) hy
  exact ⟨settings, input, hub, trace, h, hsession, hover,
    old_attempts_touch_nothing settings input h ho⟩

private def askedTwice : List (SocketEvent Unit TerminalRequest Callback) :=
  [.connects (), .sends (.connectSsh ⟨some "vm-1", none, none, none⟩ (.user ⟨"u", .user⟩)),
    .calls 0 (.replied (some (some runningVm)) true),
    .sends (.connectSsh ⟨some "vm-1", some "secret", none, none⟩ (.user ⟨"u", .user⟩)),
    .calls 1 (.replied (some (some runningVm)) true), .calls 1 (.ssh (.ready .direct)),
    .calls 1 (.ssh (.shellOpened .direct true))]

/-- The timer of the request that was refused for its missing credentials ends the session. -/
theorem old_attempt_ends_session :
    ¬ ∀ (settings : ConnectSettings) (input : Settings) (hub : String → Seat TerminalSeat Attempt)
      (trace : List ((String × SocketEvent Unit TerminalRequest Callback) ×
        (String → Seat TerminalSeat Attempt))),
      Run (terminalGateway settings input).Step
        (fun _ => (terminalGateway settings input).start) trace hub →
      Along (fun h l => Untouched settings input (h l.1) l.2)
        (fun _ => (terminalGateway settings input).start) trace := by
  intro hall
  let settings : ConnectSettings := ⟨none, false, "", fun _ => none⟩
  let input : Settings := ⟨.audit, 3, by decide⟩
  let gateway := terminalGateway settings input
  let fires : SocketEvent Unit TerminalRequest Callback := .calls 0 (.ssh (.timeout .direct))
  have hrun : ((askedTwice.foldlM gateway.after gateway.start).bind fun y =>
      (gateway.after y fires).map fun z => (y.data.session, z.data.session)) =
        some (some (1, .direct), none) := by decide
  simp only [Option.bind_eq_some_iff, Option.map_eq_some_iff, Prod.mk.injEq] at hrun
  obtain ⟨y, hy, z, hz, hbefore, hafter⟩ := hrun
  have hbroken : ¬ Untouched settings input y fires := by
    intro hu
    have hsame := hu 0 (.ssh (.timeout .direct)) 1 .direct z rfl hbefore (.inl (by decide)) hz
    rw [hsame, hbefore] at hafter
    cases hafter
  obtain ⟨trace, hub, h, hnot⟩ := Gateway.not_along hy hz hbroken
  exact hnot (hall settings input hub trace h)

end Sessions

end CloudVM.Terminal
