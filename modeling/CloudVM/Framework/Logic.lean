import CloudVM.Framework.Process

/-!
# Reasoning about one process

`Wp` is the weakest precondition of a process against a state that its answers change: each
call it makes must be permitted in the state at hand, and each outcome must satisfy the
postcondition. The state may be the real one or a ghost. `exec` runs a process
where every answer is determined. `Only` and `Within` look at the calls alone.
-/

namespace CloudVM.Process

variable {I : Interface} {ε α β σ : Type}

/-- Run against a state that determines every answer. -/
def exec (answer : (c : I.Call) → σ → I.Answer c × σ) : Process I ε α → σ → Except ε α × σ
  | .ret a, s => (.ok a, s)
  | .raise e, s => (.error e, s)
  | .call c k, s => (k (answer c s).1).exec answer (answer c s).2

section Exec

variable {answer : (c : I.Call) → σ → I.Answer c × σ}

@[simp] theorem exec_ret (a : α) (s : σ) :
    (.ret a : Process I ε α).exec answer s = (.ok a, s) := rfl

@[simp] theorem exec_raise (e : ε) (s : σ) :
    (.raise e : Process I ε α).exec answer s = (.error e, s) := rfl

@[simp] theorem exec_call (c : I.Call) (k : I.Answer c → Process I ε α) (s : σ) :
    (.call c k : Process I ε α).exec answer s =
      (k (answer c s).1).exec answer (answer c s).2 := rfl

@[simp] theorem exec_bind (p : Process I ε α) (f : α → Process I ε β) (s : σ) :
    (p >>= f).exec answer s =
      match p.exec answer s with
      | (.ok a, s') => (f a).exec answer s'
      | (.error e, s') => (.error e, s') := by
  induction p generalizing s with
  | ret a => rfl
  | raise e => rfl
  | call c k ih => simp only [call_bind, exec_call, ih]

@[simp] theorem exec_tryCatch (p : Process I ε α) (h : ε → Process I ε α) (s : σ) :
    (tryCatch p h).exec answer s =
      match p.exec answer s with
      | (.ok a, s') => (.ok a, s')
      | (.error e, s') => (h e).exec answer s' := by
  induction p generalizing s with
  | ret a => rfl
  | raise e => rfl
  | call c k ih => simp only [call_tryCatch, exec_call, ih]

theorem exec_attempt (p : Process I ε α) (s : σ) :
    p.attempt.exec answer s = (.ok (p.exec answer s).1, (p.exec answer s).2) := by
  induction p generalizing s with
  | ret a => rfl
  | raise e => rfl
  | call c k ih => exact ih _ _

@[simp] theorem exec_ofExcept (r : Except ε α) (s : σ) :
    (ofExcept r : Process I ε α).exec answer s = (r, s) := by
  cases r <;> rfl

end Exec

section Wp

variable (P : σ → I.Call → Prop) (effect : (c : I.Call) → σ → I.Answer c → σ → Prop)

/-- A postcondition with one part for results and one for errors. -/
def Post (ok : α → σ → Prop) (error : ε → σ → Prop) : Except ε α → σ → Prop
  | .ok a, s => ok a s
  | .error e, s => error e s

@[simp] theorem post_ok (ok : α → σ → Prop) (error : ε → σ → Prop) (a : α) (s : σ) :
    Post ok error (.ok a) s ↔ ok a s := Iff.rfl

@[simp] theorem post_error (ok : α → σ → Prop) (error : ε → σ → Prop) (e : ε) (s : σ) :
    Post ok error (.error e) s ↔ error e s := Iff.rfl

/-- From `s`, whatever answers `effect` allows, every call is permitted by `P` and every
outcome lies in `Q`. -/
def Wp : Process I ε α → (Except ε α → σ → Prop) → σ → Prop
  | .ret a, Q, s => Q (.ok a) s
  | .raise e, Q, s => Q (.error e) s
  | .call c k, Q, s => P s c ∧ ∀ r s', effect c s r s' → (k r).Wp Q s'

variable {P effect}

@[simp] theorem wp_ret (a : α) (Q : Except ε α → σ → Prop) (s : σ) :
    (.ret a : Process I ε α).Wp P effect Q s ↔ Q (.ok a) s := Iff.rfl

@[simp] theorem wp_raise (e : ε) (Q : Except ε α → σ → Prop) (s : σ) :
    (.raise e : Process I ε α).Wp P effect Q s ↔ Q (.error e) s := Iff.rfl

@[simp] theorem wp_call (c : I.Call) (k : I.Answer c → Process I ε α)
    (Q : Except ε α → σ → Prop) (s : σ) :
    (.call c k : Process I ε α).Wp P effect Q s ↔
      P s c ∧ ∀ r s', effect c s r s' → (k r).Wp P effect Q s' := Iff.rfl

@[simp] theorem wp_ofExcept (r : Except ε α) (Q : Except ε α → σ → Prop) (s : σ) :
    (ofExcept r : Process I ε α).Wp P effect Q s ↔ Q r s := by
  cases r <;> rfl

theorem Wp.mono {Q Q' : Except ε α → σ → Prop} {p : Process I ε α} {s : σ}
    (h : p.Wp P effect Q s) (hQ : ∀ r s, Q r s → Q' r s) : p.Wp P effect Q' s := by
  induction p generalizing s with
  | ret a => exact hQ _ _ h
  | raise e => exact hQ _ _ h
  | call c k ih => exact ⟨h.1, fun r s' he => ih r (h.2 r s' he)⟩

theorem Wp.permits_mono {P' : σ → I.Call → Prop} {Q : Except ε α → σ → Prop} {p : Process I ε α}
    {s : σ} (h : p.Wp P effect Q s) (hP : ∀ s c, P s c → P' s c) : p.Wp P' effect Q s := by
  induction p generalizing s with
  | ret a => exact h
  | raise e => exact h
  | call c k ih => exact ⟨hP s c h.1, fun r s' he => ih r (h.2 r s' he)⟩

theorem Wp.and {Q Q' : Except ε α → σ → Prop} {p : Process I ε α} {s : σ}
    (h : p.Wp P effect Q s) (h' : p.Wp P effect Q' s) :
    p.Wp P effect (fun out t => Q out t ∧ Q' out t) s := by
  induction p generalizing s with
  | ret a => exact ⟨h, h'⟩
  | raise e => exact ⟨h, h'⟩
  | call c k ih => exact ⟨h.1, fun r s' he => ih r (h.2 r s' he) (h'.2 r s' he)⟩

theorem Wp.permits_and {P' : σ → I.Call → Prop} {Q Q' : Except ε α → σ → Prop} {p : Process I ε α}
    {s : σ} (h : p.Wp P effect Q s) (h' : p.Wp P' effect Q' s) :
    p.Wp (fun s c => P s c ∧ P' s c) effect Q s := by
  induction p generalizing s with
  | ret a => exact h
  | raise e => exact h
  | call c k ih => exact ⟨⟨h.1, h'.1⟩, fun r s' he => ih r (h.2 r s' he) (h'.2 r s' he)⟩

/-- What holds of a process holds of it among the calls of another interface. -/
theorem Wp.lift {J : Interface} {τ : Type} {f : I.Call → J.Call}
    {g : (c : I.Call) → J.Answer (f c) → I.Answer c} {P' : τ → J.Call → Prop}
    {effect' : (c : J.Call) → τ → J.Answer c → τ → Prop} (m : τ → σ)
    (hP : ∀ t c, P (m t) c → P' t (f c))
    (he : ∀ t c r t', effect' (f c) t r t' → effect c (m t) (g c r) (m t'))
    {Q : Except ε α → σ → Prop} {p : Process I ε α} {t : τ} (h : p.Wp P effect Q (m t)) :
    (p.lift f g).Wp P' effect' (fun out t => Q out (m t)) t := by
  induction p generalizing t with
  | ret a => exact h
  | raise e => exact h
  | call c k ih =>
    exact ⟨hP t c h.1, fun r t' ht => ih (g c r) (h.2 (g c r) (m t') (he t c r t' ht))⟩

theorem wp_true (hP : ∀ s c, P s c) (p : Process I ε α) (s : σ) :
    p.Wp P effect (fun _ _ => True) s := by
  induction p generalizing s with
  | ret a => trivial
  | raise e => trivial
  | call c k ih => exact ⟨hP s c, fun r s' _ => ih r s'⟩

@[simp] theorem wp_bind (p : Process I ε α) (f : α → Process I ε β)
    (Q : Except ε β → σ → Prop) (s : σ) :
    (p >>= f).Wp P effect Q s ↔
      p.Wp P effect (Post (fun a t => (f a).Wp P effect Q t) fun e t => Q (.error e) t) s := by
  induction p generalizing s with
  | ret a => rfl
  | raise e => rfl
  | call c k ih => simp only [call_bind, wp_call, ih]

/-- Catching: the handler must do well on every error of the body. -/
@[simp] theorem wp_tryCatch (p : Process I ε α) (h : ε → Process I ε α)
    (Q : Except ε α → σ → Prop) (s : σ) :
    (tryCatch p h).Wp P effect Q s ↔
      p.Wp P effect (Post (fun a t => Q (.ok a) t) fun e t => (h e).Wp P effect Q t) s := by
  induction p generalizing s with
  | ret a => rfl
  | raise e => rfl
  | call c k ih => simp only [call_tryCatch, wp_call, ih]

theorem Wp.bind {p : Process I ε α} {f : α → Process I ε β} {R : Except ε α → σ → Prop}
    {Q : Except ε β → σ → Prop} {s : σ} (hp : p.Wp P effect R s)
    (herror : ∀ e t, R (.error e) t → Q (.error e) t)
    (hf : ∀ a t, R (.ok a) t → (f a).Wp P effect Q t) : (p >>= f).Wp P effect Q s := by
  apply (wp_bind p f Q s).mpr
  apply hp.mono
  intro out t h
  cases out with
  | ok a => exact hf a t h
  | error e => exact herror e t h

theorem Wp.recover {p : Process I ε α} {h : ε → Process I ε α} {R Q : Except ε α → σ → Prop}
    {s : σ} (hp : p.Wp P effect R s) (hok : ∀ a t, R (.ok a) t → Q (.ok a) t)
    (hh : ∀ e t, R (.error e) t → (h e).Wp P effect Q t) :
    (tryCatch p h).Wp P effect Q s := by
  apply (wp_tryCatch p h Q s).mpr
  apply hp.mono
  intro out t hout
  cases out with
  | ok a => exact hok a t hout
  | error e => exact hh e t hout

@[simp] theorem wp_attempt (p : Process I ε α) (Q : Except ε (Except ε α) → σ → Prop) (s : σ) :
    p.attempt.Wp P effect Q s ↔ p.Wp P effect (fun out t => Q (.ok out) t) s := by
  change (tryCatch (p >>= fun a => .ret (.ok a)) fun e => .ret (.error e)).Wp P effect Q s ↔ _
  rw [wp_tryCatch, wp_bind]
  constructor
  · intro h
    apply h.mono
    intro r t hr
    cases r <;> exact hr
  · intro h
    apply h.mono
    intro r t hr
    cases r <;> exact hr

theorem Wp.andFinally {p : Process I ε α} {f : Process I ε Unit} {s : σ}
    (h : p.Wp P effect (fun _ t => f.Wp P effect (fun _ _ => True) t) s) :
    (p.andFinally f).Wp P effect (fun _ _ => True) s := by
  refine (wp_bind _ _ _ _).mpr ((wp_attempt _ _ _).mpr (h.mono fun out t ht => ?_))
  refine (wp_bind _ _ _ _).mpr (ht.mono fun r t' _ => ?_)
  cases r with
  | error e => trivial
  | ok u => exact (wp_ofExcept _ _ _).mpr trivial

theorem Wp.of_bind {p : Process I ε α} {f : α → Process I ε β} {Q : Except ε β → σ → Prop} {s : σ}
    (h : (p >>= f).Wp P effect Q s) : p.Wp P effect (fun _ _ => True) s :=
  ((wp_bind p f Q s).mp h).mono fun _ _ _ => trivial

theorem Wp.of_tryCatch {p : Process I ε α} {f : ε → Process I ε α} {Q : Except ε α → σ → Prop}
    {s : σ} (h : (tryCatch p f).Wp P effect Q s) : p.Wp P effect (fun _ _ => True) s :=
  ((wp_tryCatch p f Q s).mp h).mono fun _ _ _ => trivial

/-- Some allowed answers lead the process from `s` to the outcome and the state. -/
def Ends (effect : (c : I.Call) → σ → I.Answer c → σ → Prop) :
    Process I ε α → σ → Except ε α → σ → Prop
  | .ret a, s, out, t => out = .ok a ∧ t = s
  | .raise e, s, out, t => out = .error e ∧ t = s
  | .call c k, s, out, t => ∃ r u, effect c s r u ∧ (k r).Ends effect u out t

/-- Some allowed answers lead to an outcome in `Q`. -/
def May (effect : (c : I.Call) → σ → I.Answer c → σ → Prop) (p : Process I ε α)
    (Q : Except ε α → σ → Prop) (s : σ) : Prop := ∃ out t, p.Ends effect s out t ∧ Q out t

theorem May.ret {effect : (c : I.Call) → σ → I.Answer c → σ → Prop} {Q : Except ε α → σ → Prop}
    {a : α} {s : σ} (h : Q (.ok a) s) : (.ret a : Process I ε α).May effect Q s :=
  ⟨_, _, ⟨rfl, rfl⟩, h⟩

theorem May.call {effect : (c : I.Call) → σ → I.Answer c → σ → Prop} {c : I.Call}
    {k : I.Answer c → Process I ε α} {Q : Except ε α → σ → Prop} {s u : σ} {r : I.Answer c}
    (he : effect c s r u) (h : (k r).May effect Q u) : (Process.call c k).May effect Q s := by
  obtain ⟨out, t, hk, hq⟩ := h
  exact ⟨out, t, ⟨r, u, he, hk⟩, hq⟩

theorem Wp.ends {p : Process I ε α} {Q : Except ε α → σ → Prop} {s t : σ} {out : Except ε α}
    (h : p.Wp P effect Q s) (he : p.Ends effect s out t) : Q out t := by
  induction p generalizing s with
  | ret a =>
    obtain ⟨rfl, rfl⟩ := he
    exact h
  | raise e =>
    obtain ⟨rfl, rfl⟩ := he
    exact h
  | call c k ih =>
    obtain ⟨r, u, hr, hk⟩ := he
    exact ih r (h.2 r u hr) hk

theorem Wp.bind_ends {p : Process I ε α} {f : α → Process I ε β} {Q : Except ε β → σ → Prop}
    {s t : σ} {a : α} (h : (p >>= f).Wp P effect Q s) (he : p.Ends effect s (.ok a) t) :
    (f a).Wp P effect Q t := ((wp_bind p f Q s).mp h).ends he

/-- From every state with `J`, every call is permitted and every outcome has `J` again. -/
def Keeps (P : σ → I.Call → Prop) (effect : (c : I.Call) → σ → I.Answer c → σ → Prop)
    (J : σ → Prop) (p : Process I ε α) : Prop :=
  ∀ s, J s → p.Wp P effect (fun _ t => J t) s

section Keeps

variable {J : σ → Prop}

@[simp] theorem keeps_ret (a : α) : (.ret a : Process I ε α).Keeps P effect J :=
  fun _ hs => hs

@[simp] theorem keeps_raise (e : ε) : (.raise e : Process I ε α).Keeps P effect J :=
  fun _ hs => hs

@[simp] theorem keeps_ofExcept (r : Except ε α) : (ofExcept r : Process I ε α).Keeps P effect J :=
  fun s hs => (wp_ofExcept r _ s).mpr hs

theorem keeps_call {c : I.Call} {k : I.Answer c → Process I ε α} (hP : ∀ s, J s → P s c)
    (hk : ∀ r s s', J s → effect c s r s' → J s' ∧ (k r).Keeps P effect J) :
    (.call c k : Process I ε α).Keeps P effect J := by
  intro s hs
  refine ⟨hP s hs, fun r s' he => ?_⟩
  obtain ⟨hs', hkr⟩ := hk r s s' hs he
  exact hkr s' hs'

theorem keeps_bind {p : Process I ε α} {f : α → Process I ε β} (hp : p.Keeps P effect J)
    (hf : ∀ a, (f a).Keeps P effect J) : (p >>= f).Keeps P effect J := by
  intro s hs
  rw [wp_bind]
  apply (hp s hs).mono
  intro r t ht
  cases r with
  | error e => exact ht
  | ok a => exact hf a t ht

/-- A process keeps what the processes that carry out its calls keep. -/
theorem keeps_expand {J' : Interface} {τ : Type} {P' : τ → J'.Call → Prop}
    {effect' : (c : J'.Call) → τ → J'.Answer c → τ → Prop} {K : τ → Prop}
    {f : (c : I.Call) → Process J' ε (I.Answer c)} (hf : ∀ c, (f c).Keeps P' effect' K)
    (p : Process I ε α) : (p.expand f).Keeps P' effect' K := by
  induction p with
  | ret a => exact keeps_ret a
  | raise e => exact keeps_raise e
  | call c k ih => exact keeps_bind (hf c) ih

theorem keeps_tryCatch {p : Process I ε α} {h : ε → Process I ε α} (hp : p.Keeps P effect J)
    (hh : ∀ e, (h e).Keeps P effect J) : (tryCatch p h).Keeps P effect J := by
  intro s hs
  rw [wp_tryCatch]
  apply (hp s hs).mono
  intro r t ht
  cases r with
  | error e => exact hh e t ht
  | ok a => exact ht

theorem keeps_attempt {p : Process I ε α} (hp : p.Keeps P effect J) :
    p.attempt.Keeps P effect J := by
  intro s hs
  rw [wp_attempt]
  exact hp s hs

theorem keeps_andFinally {p : Process I ε α} {f : Process I ε Unit} (hp : p.Keeps P effect J)
    (hf : f.Keeps P effect J) : (p.andFinally f).Keeps P effect J :=
  keeps_bind (keeps_attempt hp) fun _ => keeps_bind hf fun _ => keeps_ofExcept _

theorem keeps_forEach {f : β → Process I ε Unit} (bs : List β)
    (hf : ∀ b ∈ bs, (f b).Keeps P effect J) : (forEach f bs).Keeps P effect J := by
  induction bs with
  | nil => exact keeps_ret ()
  | cons b bs ih =>
    exact keeps_bind (hf b (by simp)) fun _ => ih fun b hb => hf b (by simp [hb])

end Keeps

/-- Every outcome is reached if every call can be answered. -/
theorem ends_total {effect : (c : I.Call) → σ → I.Answer c → σ → Prop}
    (h : ∀ c s, ∃ r s', effect c s r s') (p : Process I ε α) (s : σ) :
    ∃ out t, p.Ends effect s out t := by
  induction p generalizing s with
  | ret a => exact ⟨_, _, rfl, rfl⟩
  | raise e => exact ⟨_, _, rfl, rfl⟩
  | call c k ih =>
    obtain ⟨r, u, hr⟩ := h c s
    obtain ⟨out, t, ht⟩ := ih r u
    exact ⟨out, t, r, u, hr, ht⟩

section Ends

variable {effect : (c : I.Call) → σ → I.Answer c → σ → Prop} {s t u : σ}

theorem Ends.call {c : I.Call} {k : I.Answer c → Process I ε α} {out : Except ε α} {r : I.Answer c}
    (he : effect c s r u) (h : (k r).Ends effect u out t) :
    (Process.call c k).Ends effect s out t := ⟨r, u, he, h⟩

theorem Ends.bind {p : Process I ε α} {f : α → Process I ε β} {a : α} {out : Except ε β}
    (hp : p.Ends effect s (.ok a) t) (hf : (f a).Ends effect t out u) :
    (p >>= f).Ends effect s out u := by
  induction p generalizing s with
  | ret b =>
    obtain ⟨hb, rfl⟩ := hp
    cases hb
    exact hf
  | raise e =>
    obtain ⟨hb, -⟩ := hp
    cases hb
  | call c k ih =>
    obtain ⟨r, v, hr, hk⟩ := hp
    exact ⟨r, v, hr, ih r hk⟩

theorem Ends.invariant {J : σ → Prop} {p : Process I ε α} {out : Except ε α}
    (h : p.Ends effect s out t) (hJ : ∀ c s r s', J s → effect c s r s' → J s') (hs : J s) : J t := by
  induction p generalizing s with
  | ret a =>
    obtain ⟨-, rfl⟩ := h
    exact hs
  | raise e =>
    obtain ⟨-, rfl⟩ := h
    exact hs
  | call c k ih =>
    obtain ⟨r, v, hr, hk⟩ := h
    exact ih r hk (hJ c s r v hs hr)

/-- If every call may be answered without a change, so may the whole process. -/
theorem ends_unchanged (h : ∀ c s, ∃ r, effect c s r s) (p : Process I ε α) (s : σ) :
    ∃ out, p.Ends effect s out s := by
  induction p with
  | ret a => exact ⟨_, rfl, rfl⟩
  | raise e => exact ⟨_, rfl, rfl⟩
  | call c k ih =>
    obtain ⟨r, hr⟩ := h c s
    obtain ⟨out, hout⟩ := ih r
    exact ⟨out, r, s, hr, hout⟩

end Ends

end Wp

section Only

/-- Every call the process can make lies in `M`, whatever the answers. -/
def Only (M : I.Call → Prop) : Process I ε α → Prop
  | .ret _ => True
  | .raise _ => True
  | .call c k => M c ∧ ∀ r, (k r).Only M

variable {M : I.Call → Prop}

@[simp] theorem only_ret (a : α) : (.ret a : Process I ε α).Only M := trivial

@[simp] theorem only_raise (e : ε) : (.raise e : Process I ε α).Only M := trivial

@[simp] theorem only_pure (a : α) : (pure a : Process I ε α).Only M := trivial

@[simp] theorem only_throw (e : ε) : (throw e : Process I ε α).Only M := trivial

@[simp] theorem only_ofExcept (r : Except ε α) : (ofExcept r : Process I ε α).Only M := by
  cases r <;> trivial

theorem Only.mono {M' : I.Call → Prop} {p : Process I ε α} (h : p.Only M) (hM : ∀ c, M c → M' c) :
    p.Only M' := by
  induction p with
  | ret a => trivial
  | raise e => trivial
  | call c k ih => exact ⟨hM c h.1, fun r => ih r (h.2 r)⟩

theorem only_request {c : I.Call} {f : I.Answer c → Except ε α} (h : M c) :
    (.call c fun r => ofExcept (f r) : Process I ε α).Only M := ⟨h, fun _ => only_ofExcept _⟩

theorem only_bind {p : Process I ε α} {f : α → Process I ε β} (hp : p.Only M)
    (hf : ∀ a, (f a).Only M) : (p >>= f).Only M := by
  induction p with
  | ret a => exact hf a
  | raise e => trivial
  | call c k ih => exact ⟨hp.1, fun r => ih r (hp.2 r)⟩

theorem only_tryCatch {p : Process I ε α} {f : ε → Process I ε α} (hp : p.Only M)
    (hf : ∀ e, (f e).Only M) : (tryCatch p f).Only M := by
  induction p with
  | ret a => trivial
  | raise e => exact hf e
  | call c k ih => exact ⟨hp.1, fun r => ih r (hp.2 r)⟩

theorem only_lift {J : Interface} {f : I.Call → J.Call}
    {g : (c : I.Call) → J.Answer (f c) → I.Answer c} {M' : J.Call → Prop} {p : Process I ε α}
    (h : p.Only fun c => M' (f c)) : (p.lift f g).Only M' := by
  induction p with
  | ret a => trivial
  | raise e => trivial
  | call c k ih => exact ⟨h.1, fun r => ih (g c r) (h.2 (g c r))⟩

theorem only_attempt {p : Process I ε α} (hp : p.Only M) : p.attempt.Only M :=
  only_tryCatch (only_bind hp fun _ => trivial) fun _ => trivial

theorem only_andFinally {p : Process I ε α} {f : Process I ε Unit} (hp : p.Only M)
    (hf : f.Only M) : (p.andFinally f).Only M :=
  only_bind (only_attempt hp) fun out => only_bind hf fun _ => only_ofExcept out

theorem only_forEach {f : β → Process I ε Unit} (bs : List β) (hf : ∀ b, (f b).Only M) :
    (forEach f bs).Only M := by
  induction bs with
  | nil => trivial
  | cons b bs ih => exact only_bind (hf b) fun _ => ih

/-- An invariant that no call in `M` breaks is kept by a process that makes no others. -/
theorem Only.keeps {P : σ → I.Call → Prop} {effect : (c : I.Call) → σ → I.Answer c → σ → Prop}
    {J : σ → Prop} {p : Process I ε α} (h : p.Only M) (hP : ∀ s c, M c → P s c)
    (hJ : ∀ c s r s', M c → J s → effect c s r s' → J s') : p.Keeps P effect J := by
  induction p with
  | ret a => exact keeps_ret a
  | raise e => exact keeps_raise e
  | call c k ih =>
    apply keeps_call
    · intro s _
      exact hP s c h.1
    · intro r s s' hs he
      exact ⟨hJ c s r s' h.1 hs he, ih r (h.2 r)⟩

/-- What no call in `M` breaks holds after a determined run of a process that makes no others. -/
theorem Only.exec_invariant {answer : (c : I.Call) → σ → I.Answer c × σ} {J : σ → Prop}
    {p : Process I ε α} {s : σ} (h : p.Only M) (hJ : ∀ c s, M c → J s → J (answer c s).2)
    (hs : J s) : J (p.exec answer s).2 := by
  induction p generalizing s with
  | ret a => exact hs
  | raise e => exact hs
  | call c k ih => exact ih _ (h.2 _) (hJ c s h.1 hs)

/-- A process whose calls are permitted in a state and lead nowhere else stays there. -/
theorem Only.stays {P : σ → I.Call → Prop} {effect : (c : I.Call) → σ → I.Answer c → σ → Prop}
    {p : Process I ε α} {s : σ} (h : p.Only M) (hP : ∀ c, M c → P s c)
    (hs : ∀ c r t, M c → effect c s r t → t = s) : p.Wp P effect (fun _ t => t = s) s := by
  induction p with
  | ret a => rfl
  | raise e => rfl
  | call c k ih =>
    refine ⟨hP c h.1, ?_⟩
    intro r t ht
    rw [hs c r t h.1 ht]
    exact ih r (h.2 r)

/-- A process whose calls are answered alike in two states ends alike from both. -/
theorem Only.ends_agree {effect : (c : I.Call) → σ → I.Answer c → σ → Prop} {R : σ → σ → Prop}
    {p : Process I ε α} (h : p.Only M)
    (hR : ∀ c r s s' t, M c → R s t → effect c s r s' → ∃ t', effect c t r t' ∧ R s' t')
    {s s' t : σ} {out : Except ε α} (hst : R s t) (he : p.Ends effect s out s') :
    ∃ t', p.Ends effect t out t' ∧ R s' t' := by
  induction p generalizing s t with
  | ret a =>
    obtain ⟨hout, rfl⟩ := he
    exact ⟨t, ⟨hout, rfl⟩, hst⟩
  | raise e =>
    obtain ⟨hout, rfl⟩ := he
    exact ⟨t, ⟨hout, rfl⟩, hst⟩
  | call c k ih =>
    obtain ⟨r, u, hr, hk⟩ := he
    obtain ⟨v, hv, huv⟩ := hR c r s u t h.1 hst hr
    obtain ⟨t', ht', hst'⟩ := ih r (h.2 r) huv hk
    exact ⟨t', ⟨r, v, hv, ht'⟩, hst'⟩

end Only

section Within

/-- Whatever answers `fits` allows, every call lies in `M` and every result in `Q`. -/
def Within (M : I.Call → Prop) (fits : (c : I.Call) → I.Answer c → Prop) :
    Process I ε α → (α → Prop) → Prop
  | .ret a, Q => Q a
  | .raise _, _ => True
  | .call c k, Q => M c ∧ ∀ r, fits c r → (k r).Within M fits Q

variable {M : I.Call → Prop} {fits : (c : I.Call) → I.Answer c → Prop} {Q : α → Prop}

theorem within_ofExcept {r : Except ε α} (h : ∀ a, r = .ok a → Q a) :
    (ofExcept r : Process I ε α).Within M fits Q := by
  cases r with
  | error e => trivial
  | ok a => exact h a rfl

theorem within_bind {p : Process I ε α} {f : α → Process I ε β} {R : β → Prop}
    (hp : p.Within M fits Q) (hf : ∀ a, Q a → (f a).Within M fits R) :
    (p >>= f).Within M fits R := by
  induction p with
  | ret a => exact hf a hp
  | raise e => trivial
  | call c k ih => exact ⟨hp.1, fun r hr => ih r (hp.2 r hr)⟩

theorem within_tryCatch {p : Process I ε α} {f : ε → Process I ε α} (hp : p.Within M fits Q)
    (hf : ∀ e, (f e).Within M fits Q) : (tryCatch p f).Within M fits Q := by
  induction p with
  | ret a => exact hp
  | raise e => exact hf e
  | call c k ih => exact ⟨hp.1, fun r hr => ih r (hp.2 r hr)⟩

/-- A call and what follows its answer. -/
theorem within_call {c : I.Call} {g : I.Answer c → Process I ε α} {f : α → Process I ε β}
    {R : β → Prop} (hc : M c) (h : ∀ r, fits c r → (g r >>= f).Within M fits R) :
    ((.call c g : Process I ε α) >>= f).Within M fits R := ⟨hc, h⟩

theorem Only.within {M' : I.Call → Prop} {p : Process I ε α} (h : p.Only M')
    (hM : ∀ c, M' c → M c) : p.Within M fits fun _ => True := by
  induction p with
  | ret a => trivial
  | raise e => trivial
  | call c k ih => exact ⟨hM c h.1, fun r _ => ih r (h.2 r)⟩

theorem Within.mono {R : α → Prop} {p : Process I ε α} (h : p.Within M fits Q)
    (hQ : ∀ a, Q a → R a) : p.Within M fits R := by
  induction p with
  | ret a => exact hQ a h
  | raise e => trivial
  | call c k ih => exact ⟨h.1, fun r hr => ih r (h.2 r hr)⟩

/-- What a process may return is in `Q` when the effects allow no other answers. -/
theorem Within.ends {effect : (c : I.Call) → σ → I.Answer c → σ → Prop} {p : Process I ε α}
    (h : p.Within M fits Q) (hfits : ∀ c s r s', effect c s r s' → fits c r) {s t : σ} {a : α}
    (he : p.Ends effect s (.ok a) t) : Q a := by
  induction p generalizing s with
  | ret b =>
    cases he.1
    exact h
  | raise e => cases he.1
  | call c k ih =>
    obtain ⟨r, u, hr, hk⟩ := he
    exact ih r (h.2 r (hfits c s r u hr)) hk

theorem Within.lift {J : Interface} {f : I.Call → J.Call}
    {g : (c : I.Call) → J.Answer (f c) → I.Answer c} {N : J.Call → Prop}
    {fits' : (c : J.Call) → J.Answer c → Prop} {p : Process I ε α} (h : p.Within M fits Q)
    (hM : ∀ c, M c → N (f c)) (hfits : ∀ c r, fits' (f c) r → fits c (g c r)) :
    (p.lift f g).Within N fits' Q := by
  induction p with
  | ret a => exact h
  | raise e => trivial
  | call c k ih => exact ⟨hM c h.1, fun r hr => ih (g c r) (h.2 (g c r) (hfits c r hr))⟩

end Within

end CloudVM.Process
