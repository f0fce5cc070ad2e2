import CloudVM.Framework.Requests
import Mathlib.Logic.Function.Basic

/-!
# Gateways with late callbacks

A gateway keeps data under the id of each socket. Opening a socket or a request on it may start
an attempt; the callbacks of an attempt come later, in any order, and also after the socket has
left. Each callback may end what is kept under the id, put a session there or send the socket
away. The steps of one socket are a partial function; those of the gateway interleave them.
-/

namespace CloudVM

/-- Whether a socket has come yet, is connected or has left; its id is not used again. -/
inductive Presence where
  | absent
  | connected
  | left
deriving DecidableEq, Repr

/-- What a callback does to what is kept under the id of its socket. -/
inductive Effect (κ : Type) where
  | keep
  | cleanup
  | register (session : κ)
  | disconnect
deriving DecidableEq, Repr

/-- What the gateway makes of a request of a socket. -/
structure Response (σ A : Type) where
  data : σ
  attempt : Option A := none
  disconnects : Bool := false

/-- How requests and callbacks are handled. A callback that is not due has no outcome. -/
structure Gateway (σ A κ Q R C : Type) where
  fresh : σ
  register : ℕ → κ → σ → σ
  accept : Q → Response σ A
  receive : R → σ → Response σ A
  handle : C → A → Option (A × Effect κ)

/-- One socket: its attempts are in the order in which they were started. -/
structure Seat (σ A : Type) where
  presence : Presence
  data : σ
  attempts : List A
deriving DecidableEq

inductive SocketEvent (Q R C : Type) where
  | connects (q : Q)
  | disconnects
  | sends (r : R)
  | calls (i : ℕ) (c : C)

namespace Gateway

variable {σ A κ Q R C : Type} (G : Gateway σ A κ Q R C)

def start : Seat σ A := ⟨.absent, G.fresh, []⟩

def respond (x : Seat σ A) (r : Response σ A) : Seat σ A :=
  if r.disconnects then ⟨.left, G.fresh, x.attempts ++ r.attempt.toList⟩
  else ⟨.connected, r.data, x.attempts ++ r.attempt.toList⟩

def apply (i : ℕ) (x : Seat σ A) : Effect κ → Seat σ A
  | .keep => x
  | .cleanup => { x with data := G.fresh }
  | .register session => { x with data := G.register i session x.data }
  | .disconnect =>
      if x.presence = .connected then { x with presence := .left, data := G.fresh } else x

def after (x : Seat σ A) : SocketEvent Q R C → Option (Seat σ A)
  | .connects q => if x.presence = .absent then some (G.respond x (G.accept q)) else none
  | .disconnects =>
      if x.presence = .connected then some { x with presence := .left, data := G.fresh } else none
  | .sends r =>
      if x.presence = .connected then some (G.respond x (G.receive r x.data)) else none
  | .calls i c =>
      (x.attempts[i]?.bind (G.handle c)).map fun out =>
        G.apply i { x with attempts := x.attempts.set i out.1 } out.2

def Step (h : String → Seat σ A) (l : String × SocketEvent Q R C) (h' : String → Seat σ A) : Prop :=
  ∃ y, G.after (h l.1) l.2 = some y ∧ h' = Function.update h l.1 y

variable {G}

@[simp] theorem apply_attempts (i : ℕ) (x : Seat σ A) (e : Effect κ) :
    (G.apply i x e).attempts = x.attempts := by
  cases e <;> simp only [apply]
  split <;> rfl

theorem apply_presence (i : ℕ) (x : Seat σ A) (e : Effect κ) :
    (G.apply i x e).presence = x.presence ∨
      (x.presence = .connected ∧ (G.apply i x e).presence = .left) := by
  cases e with
  | keep => exact .inl rfl
  | cleanup => exact .inl rfl
  | register session => exact .inl rfl
  | disconnect =>
    by_cases h : x.presence = .connected
    · exact .inr ⟨h, by simp [apply, h]⟩
    · exact .inl (by simp [apply, h])

theorem after_cases {x y : Seat σ A} {e : SocketEvent Q R C} (h : G.after x e = some y) :
    (∃ q, e = .connects q ∧ x.presence = .absent ∧ y = G.respond x (G.accept q)) ∨
    (e = .disconnects ∧ x.presence = .connected ∧
      y = { x with presence := .left, data := G.fresh }) ∨
    (∃ r, e = .sends r ∧ x.presence = .connected ∧ y = G.respond x (G.receive r x.data)) ∨
    (∃ i c a a' f, e = .calls i c ∧ x.attempts[i]? = some a ∧ G.handle c a = some (a', f) ∧
      y = G.apply i { x with attempts := x.attempts.set i a' } f) := by
  cases e with
  | connects q =>
    simp only [after, Option.ite_none_right_eq_some, Option.some.injEq] at h
    exact .inl ⟨q, rfl, h.1, h.2.symm⟩
  | disconnects =>
    simp only [after, Option.ite_none_right_eq_some, Option.some.injEq] at h
    exact .inr (.inl ⟨rfl, h.1, h.2.symm⟩)
  | sends r =>
    simp only [after, Option.ite_none_right_eq_some, Option.some.injEq] at h
    exact .inr (.inr (.inl ⟨r, rfl, h.1, h.2.symm⟩))
  | calls i c =>
    simp only [after, Option.map_eq_some_iff, Option.bind_eq_some_iff] at h
    obtain ⟨⟨a', f⟩, ⟨a, ha, hf⟩, rfl⟩ := h
    exact .inr (.inr (.inr ⟨i, c, a, a', f, rfl, ha, hf, rfl⟩))

section Runs

variable {J : Seat σ A → Prop} {P Q' : Seat σ A → SocketEvent Q R C → Prop}
  {hub hub' : String → Seat σ A} {trace : List ((String × SocketEvent Q R C) × (String → Seat σ A))}

/-- What the events of one socket keep holds of all sockets at the end of a run. -/
theorem seats_invariant (hJ : ∀ x e y, J x → P x e → G.after x e = some y → J y)
    (h : Run G.Step hub trace hub') (h0 : ∀ s, J (hub s))
    (hP : Along (fun h l => P (h l.1) l.2) hub trace) (s : String) : J (hub' s) := by
  apply h.invariant_along (J := fun h => ∀ s, J (h s)) ?_ h0 hP
  intro g l g' hg hp hs
  obtain ⟨y, hy, rfl⟩ := hs
  intro s
  by_cases hls : s = l.1
  · subst hls
    rw [Function.update_self]
    exact hJ _ _ _ (hg _) hp hy
  · rw [Function.update_of_ne hls]
    exact hg s

/-- What holds of every event at a socket with the invariant holds of every event of a run. -/
theorem events_along (hJ : ∀ x e y, J x → P x e → G.after x e = some y → J y)
    (hQ : ∀ x e, J x → P x e → Q' x e) (h : Run G.Step hub trace hub') (h0 : ∀ s, J (hub s))
    (hP : Along (fun h l => P (h l.1) l.2) hub trace) :
    Along (fun h l => Q' (h l.1) l.2) hub trace := by
  apply h.along_of (J := fun h => ∀ s, J (h s)) ?_ ?_ h0 hP
  · intro g l g' hg hp hs
    obtain ⟨y, hy, rfl⟩ := hs
    intro s
    by_cases hls : s = l.1
    · subst hls
      rw [Function.update_self]
      exact hJ _ _ _ (hg _) hp hy
    · rw [Function.update_of_ne hls]
      exact hg s
  · intro g l hg hp
    exact hQ _ _ (hg _) hp

end Runs

variable (G) in
/-- The events happen one after the other, each at a socket with `P`, and lead to `y`. -/
def Passes (P : Seat σ A → SocketEvent Q R C → Prop) :
    Seat σ A → List (SocketEvent Q R C) → Seat σ A → Prop
  | x, [], y => x = y
  | x, e :: events, y => P x e ∧ ∃ z, G.after x e = some z ∧ Passes P z events y

theorem Passes.exists_run {events : List (SocketEvent Q R C)} {y : Seat σ A} (s : String)
    (hub : String → Seat σ A) (h : G.Passes P (hub s) events y) :
    ∃ trace hub', Run G.Step hub trace hub' ∧ Along (fun h l => P (h l.1) l.2) hub trace ∧
      hub' s = y := by
  induction events generalizing hub with
  | nil => exact ⟨[], hub, .nil, trivial, h⟩
  | cons e events ih =>
    obtain ⟨hp, z, hz, h⟩ := h
    have hself : Function.update hub s z s = z := Function.update_self _ _ _
    rw [← hself] at h
    obtain ⟨trace, hub', hrun, halong, hy⟩ := ih (Function.update hub s z) h
    exact ⟨_, hub', .head (l := (s, e)) ⟨z, hz, rfl⟩ hrun, ⟨hp, halong⟩, hy⟩

theorem passes_of_foldlM {events : List (SocketEvent Q R C)} {x y : Seat σ A}
    (h : events.foldlM G.after x = some y) : G.Passes (fun _ _ => True) x events y := by
  induction events generalizing x with
  | nil => exact Option.some.inj h
  | cons e events ih =>
    rw [List.foldlM_cons, Option.bind_eq_bind, Option.bind_eq_some_iff] at h
    obtain ⟨z, hz, h⟩ := h
    exact ⟨trivial, z, hz, ih h⟩

/-- What every event keeps, all of them keep. -/
theorem foldlM_invariant {J : Seat σ A → Prop} {events : List (SocketEvent Q R C)} {x y : Seat σ A}
    (hJ : ∀ e ∈ events, ∀ u v, J u → G.after u e = some v → J v) (hx : J x)
    (h : events.foldlM G.after x = some y) : J y := by
  induction events generalizing x with
  | nil =>
    obtain rfl : x = y := Option.some.inj h
    exact hx
  | cons e events ih =>
    rw [List.foldlM_cons, Option.bind_eq_bind, Option.bind_eq_some_iff] at h
    obtain ⟨z, hz, h⟩ := h
    have hrest : ∀ e' ∈ events, ∀ u v, J u → G.after u e' = some v → J v :=
      fun e' hm => hJ e' (List.mem_cons_of_mem _ hm)
    exact ih hrest (hJ e List.mem_cons_self x z hx hz) h

/-- An event that breaks a property at one socket breaks it in a run. -/
theorem not_along {Q' : Seat σ A → SocketEvent Q R C → Prop} {events : List (SocketEvent Q R C)}
    {e : SocketEvent Q R C} {y z : Seat σ A} (h : events.foldlM G.after G.start = some y)
    (hz : G.after y e = some z) (hQ : ¬ Q' y e) :
    ∃ trace hub, Run G.Step (fun _ => G.start) trace hub ∧
      ¬ Along (fun h l => Q' (h l.1) l.2) (fun _ => G.start) trace := by
  obtain ⟨trace, hub, hrun, -, rfl⟩ :=
    Passes.exists_run "s" (fun _ => G.start) (passes_of_foldlM h)
  have hstep : G.Step hub ("s", e) (Function.update hub "s" z) := ⟨z, hz, rfl⟩
  exact ⟨_, _, hrun.append (.single hstep), fun ha => hQ (hrun.of_along ha)⟩

section Leaving

variable (Settled : A → Prop) (Held : σ → Prop)

/-- Only a connected socket holds a session, and one that has left cannot get one any more. -/
structure Kept (x : Seat σ A) : Prop where
  held : Held x.data → x.presence = .connected
  settled : x.presence = .left → ∀ a ∈ x.attempts, Settled a
  absent : x.presence = .absent → x.attempts = []

variable (G) in
/-- If the event makes the socket leave, the attempts that are still there are settled. -/
def LeavesSettled (x : Seat σ A) (e : SocketEvent Q R C) : Prop :=
  ∀ y, G.after x e = some y → x.presence ≠ .left → y.presence = .left → ∀ a ∈ y.attempts, Settled a

variable {Settled Held}

theorem kept_start (h : ¬ Held G.fresh) : Kept Settled Held G.start where
  held hd := absurd hd h
  settled hp := by cases hp
  absent _ := rfl

private theorem kept_respond {x : Seat σ A} {r : Response σ A} (hf : ¬ Held G.fresh)
    (hl : (G.respond x r).presence = .left → ∀ a ∈ (G.respond x r).attempts, Settled a) :
    Kept Settled Held (G.respond x r) := by
  refine ⟨?_, hl, ?_⟩
  · by_cases hd : r.disconnects = true
    · simp [respond, hd, hf]
    · simp [respond, hd]
  · by_cases hd : r.disconnects = true <;> simp [respond, hd]

/-- A settled attempt stays settled and registers nothing. -/
def StaysSettled (G : Gateway σ A κ Q R C) (Settled : A → Prop) : Prop :=
  ∀ c a a' f, Settled a → G.handle c a = some (a', f) → Settled a' ∧ ∀ s, f ≠ .register s

private theorem held_apply {i : ℕ} {x : Seat σ A} {f : Effect κ} (hf : ¬ Held G.fresh)
    (hx : Held x.data → x.presence = .connected)
    (hr : ∀ s, f = .register s → x.presence = .connected) :
    Held (G.apply i x f).data → (G.apply i x f).presence = .connected := by
  intro hd
  cases f with
  | keep => exact hx hd
  | cleanup => exact absurd hd hf
  | register s => exact hr s rfl
  | disconnect =>
    by_cases hp : x.presence = .connected
    · simp only [apply, hp, if_true] at hd
      exact absurd hd hf
    · simp only [apply, hp, if_false] at hd
      exact absurd (hx hd) hp

theorem kept_after (hf : ¬ Held G.fresh) (hs : G.StaysSettled Settled) (x : Seat σ A)
    (e : SocketEvent Q R C) (y : Seat σ A) (hx : Kept Settled Held x)
    (hl : G.LeavesSettled Settled x e) (h : G.after x e = some y) : Kept Settled Held y := by
  have hleft := hl y h
  rcases after_cases h with ⟨q, rfl, hp, rfl⟩ | ⟨rfl, hp, rfl⟩ | ⟨r, rfl, hp, rfl⟩ |
    ⟨i, c, a, a', f, rfl, ha, hf', rfl⟩
  · exact kept_respond hf (hleft (by simp [hp]))
  · exact ⟨fun hd => absurd hd hf, hleft (by simp [hp]), fun hp' => by cases hp'⟩
  · exact kept_respond hf (hleft (by simp [hp]))
  · have hmem : a ∈ x.attempts := List.mem_of_getElem? ha
    refine ⟨?_, ?_, ?_⟩
    · apply held_apply (x := { x with attempts := x.attempts.set i a' }) hf hx.held
      intro s hfs
      cases hp : x.presence with
      | absent =>
        rw [hx.absent hp] at hmem
        cases hmem
      | connected => rfl
      | left => exact absurd hfs ((hs c a a' f (hx.settled hp a hmem) hf').2 s)
    · intro hp
      by_cases hxl : x.presence = .left
      · intro b hb
        rw [apply_attempts] at hb
        rcases List.mem_or_eq_of_mem_set hb with hb | rfl
        · exact hx.settled hxl b hb
        · exact (hs c a b f (hx.settled hxl a hmem) hf').1
      · exact hleft hxl hp
    · intro hp
      rw [apply_attempts]
      rcases apply_presence (G := G) i { x with attempts := x.attempts.set i a' } f with h | ⟨-, h⟩
      · have habs : x.presence = .absent := h.symm.trans hp
        simp [hx.absent habs]
      · rw [h] at hp
        cases hp

/-- Where no socket leaves before its attempts are settled, no session outlives its socket. -/
theorem held_connected (Held : σ → Prop) (hf : ¬ Held G.fresh) (hs : G.StaysSettled Settled)
    {hub : String → Seat σ A}
    {trace : List ((String × SocketEvent Q R C) × (String → Seat σ A))}
    (h : Run G.Step (fun _ => G.start) trace hub)
    (hl : Along (fun h l => G.LeavesSettled Settled (h l.1) l.2) (fun _ => G.start) trace)
    (s : String) : Held (hub s).data → (hub s).presence = .connected := by
  have hk := seats_invariant (J := Kept Settled Held) (kept_after hf hs) h
    (fun _ => kept_start hf) hl s
  exact hk.held

end Leaving

end Gateway

end CloudVM
