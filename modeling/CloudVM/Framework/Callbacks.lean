import CloudVM.Framework.Sockets
import Mathlib.Data.List.Induction

/-!
# Where an attempt comes from

What an attempt of a gateway has come to is what its own callbacks have made of it, in their order,
since the event that started it. What happens at other sockets and to other attempts plays no part.
-/

namespace CloudVM.Gateway

variable {σ A κ Q R C : Type} {G : Gateway σ A κ Q R C}

def eventsAt (s : String) (trace : List ((String × SocketEvent Q R C) × (String → Seat σ A))) :
    List (SocketEvent Q R C) :=
  (trace.filter fun l => l.1.1 = s).map fun l => l.1.2

theorem seat_of_run {hub hub' : String → Seat σ A}
    {trace : List ((String × SocketEvent Q R C) × (String → Seat σ A))}
    (h : Run G.Step hub trace hub') (s : String) :
    (eventsAt s trace).foldlM G.after (hub s) = some (hub' s) := by
  induction h with
  | nil => rfl
  | @snoc trace g g' l hr hs ih =>
    obtain ⟨y, hy, rfl⟩ := hs
    by_cases hls : l.1 = s
    · subst hls
      have hlast : eventsAt l.1 (trace ++ [(l, Function.update g l.1 y)]) =
          eventsAt l.1 trace ++ [l.2] := by
        simp [eventsAt, List.filter_append]
      rw [hlast, List.foldlM_append, ih, Function.update_self]
      simp [hy]
    · have hsame : eventsAt s (trace ++ [(l, Function.update g l.1 y)]) = eventsAt s trace := by
        simp [eventsAt, List.filter_append, hls]
      rw [hsame, ih, Function.update_of_ne (Ne.symm hls)]

variable (G) in
def begins (x : Seat σ A) : SocketEvent Q R C → Option A
  | .connects q => (G.accept q).attempt
  | .sends r => (G.receive r x.data).attempt
  | _ => none

def callbackOf (i : ℕ) : SocketEvent Q R C → Option C
  | .calls j c => if j = i then some c else none
  | _ => none

def callbacks (i : ℕ) (events : List (SocketEvent Q R C)) : List C := events.filterMap (callbackOf i)

variable (G) in
def called (a : A) (cs : List C) : Option A := cs.foldlM (fun a c => (G.handle c a).map Prod.fst) a

theorem mem_of_mem_callbacks {i : ℕ} {c : C} {events : List (SocketEvent Q R C)}
    (h : c ∈ callbacks i events) : .calls i c ∈ events := by
  obtain ⟨e, he, hc⟩ := List.mem_filterMap.mp h
  unfold callbackOf at hc
  split at hc
  · rename_i j d
    split at hc
    · rename_i hj
      obtain rfl := Option.some.inj hc
      exact hj ▸ he
    · cases hc
  · cases hc

/-- After these events the next one starts attempt number `i`. -/
def Starts (G : Gateway σ A κ Q R C) (before : List (SocketEvent Q R C)) (e : SocketEvent Q R C)
    (i : ℕ) (a : A) : Prop :=
  ∃ x, before.foldlM G.after G.start = some x ∧ x.attempts.length = i ∧ G.begins x e = some a

/-- An attempt was started by an event, and its callbacks since then have made it what it is. -/
def Arises (G : Gateway σ A κ Q R C) (events : List (SocketEvent Q R C)) (i : ℕ) (a : A) : Prop :=
  ∃ before e after a₀, events = before ++ e :: after ∧ G.Starts before e i a₀ ∧
    G.called a₀ (callbacks i after) = some a

private theorem Arises.snoc {events : List (SocketEvent Q R C)} {i : ℕ} {a : A}
    (h : G.Arises events i a) {e : SocketEvent Q R C} (he : ∀ c, e ≠ .calls i c) :
    G.Arises (events ++ [e]) i a := by
  obtain ⟨before, b, after, a₀, rfl, hb, hcalled⟩ := h
  refine ⟨before, b, after ++ [e], a₀, by simp, hb, ?_⟩
  have hquiet : callbacks i [e] = [] := by
    cases e with
    | calls j c =>
      have hj : j ≠ i := by
        rintro rfl
        exact he c rfl
      simp [callbacks, callbackOf, hj]
    | _ => rfl
  rw [callbacks] at hquiet hcalled
  rw [callbacks, List.filterMap_append, hquiet, List.append_nil, hcalled]

private theorem Arises.begun {events : List (SocketEvent Q R C)} {x : Seat σ A}
    (hx : events.foldlM G.after G.start = some x) {e : SocketEvent Q R C} {a : A}
    (he : G.begins x e = some a) : G.Arises (events ++ [e]) x.attempts.length a :=
  ⟨events, e, [], a, rfl, ⟨x, hx, rfl, he⟩, rfl⟩

theorem attempt_arises {events : List (SocketEvent Q R C)} {y : Seat σ A}
    (h : events.foldlM G.after G.start = some y) {i : ℕ} {a : A} (hi : y.attempts[i]? = some a) :
    G.Arises events i a := by
  induction events using List.reverseRecOn generalizing y a with
  | nil =>
    obtain rfl : G.start = y := Option.some.inj h
    simp [start] at hi
  | append_singleton events e ih =>
    rw [List.foldlM_append, Option.bind_eq_bind, Option.bind_eq_some_iff] at h
    obtain ⟨x, hx, h⟩ := h
    simp only [List.foldlM_cons, List.foldlM_nil, Option.bind_eq_bind, Option.pure_def] at h
    -- a new attempt comes after the old ones
    have hnew : ∀ {r : Response σ A}, y = G.respond x r → G.begins x e = r.attempt →
        (∀ c, e ≠ .calls i c) → G.Arises (events ++ [e]) i a := by
      intro r hy hr he
      have hattempts : y.attempts = x.attempts ++ r.attempt.toList := by
        rw [hy, respond]
        split <;> rfl
      rw [hattempts, List.getElem?_append] at hi
      split at hi
      · exact (ih hx hi).snoc he
      · rename_i hlast
        cases ha : r.attempt with
        | none => simp [ha] at hi
        | some b =>
          rw [ha, Option.toList_some] at hi
          obtain ⟨hindex, rfl⟩ : i - x.attempts.length = 0 ∧ b = a := by
            simpa [List.getElem?_singleton] using hi
          obtain rfl : i = x.attempts.length := by omega
          exact .begun hx (hr.trans ha)
    rcases after_cases (by simpa using h) with ⟨q, rfl, -, hy⟩ | ⟨rfl, -, hy⟩ | ⟨r, rfl, -, hy⟩ |
      ⟨j, c, b, b', f, rfl, hb, hf, hy⟩
    · exact hnew hy rfl (by simp)
    · rw [hy] at hi
      exact (ih hx hi).snoc (by simp)
    · exact hnew hy rfl (by simp)
    · rw [hy, apply_attempts] at hi
      rcases getElem?_set_cases hi with ⟨rfl, rfl⟩ | ⟨hne, hi⟩
      · obtain ⟨before, b₀, after, a₀, rfl, hbegins, hcalled⟩ := ih hx hb
        refine ⟨before, b₀, after ++ [.calls i c], a₀, by simp, hbegins, ?_⟩
        have hlast : callbacks i ([.calls i c] : List (SocketEvent Q R C)) = [c] := by
          simp [callbacks, callbackOf]
        rw [callbacks] at hlast
        rw [called, callbacks] at hcalled
        rw [callbacks, List.filterMap_append, hlast, called, List.foldlM_append, hcalled]
        simp [hf]
      · refine (ih hx hi).snoc ?_
        rintro d hd
        injection hd with hj
        exact hne hj.symm

section Traces

variable {P : List (SocketEvent Q R C) → Prop} {events : List (SocketEvent Q R C)} {y : Seat σ A}

private theorem split_last {e : SocketEvent Q R C}
    (h : (events ++ [e]).foldlM G.after G.start = some y) :
    ∃ x, events.foldlM G.after G.start = some x ∧ G.after x e = some y := by
  rw [List.foldlM_append, Option.bind_eq_bind, Option.bind_eq_some_iff] at h
  obtain ⟨x, hx, h⟩ := h
  exact ⟨x, hx, by simpa using h⟩

/-- What holds of the events before each callback of an attempt, and of all longer histories, holds
once the attempt has called back. -/
theorem called_origin (hP : ∀ events later, P events → P (events ++ later)) {i : ℕ} {c : C}
    (hc : ∀ events a a' f, G.Arises events i a → G.handle c a = some (a', f) → P events)
    (h : events.foldlM G.after G.start = some y) (hm : .calls i c ∈ events) : P events := by
  induction events using List.reverseRecOn generalizing y with
  | nil => cases hm
  | append_singleton events e ih =>
    obtain ⟨x, hx, hy⟩ := split_last h
    rcases List.mem_append.mp hm with hm | hm
    · exact hP _ _ (ih hx hm)
    · obtain rfl := List.mem_singleton.mp hm
      rcases after_cases hy with ⟨q, he, -⟩ | ⟨he, -⟩ | ⟨r, he, -⟩ | ⟨j, d, a, a', f, he, ha, hf, -⟩
      · cases he
      · cases he
      · cases he
      · injection he with hj hd
        subst hj hd
        exact hP _ _ (hc _ _ _ _ (attempt_arises hx ha) hf)

/-- What holds of the events before each session is registered holds as long as one is held. -/
theorem held_origin (Held : σ → Prop) (hP : ∀ events later, P events → P (events ++ later))
    (hfresh : ¬ Held G.fresh) (haccept : ∀ q, ¬ Held (G.accept q).data)
    (hreceive : ∀ r d, Held (G.receive r d).data → Held d)
    (hregister : ∀ events i a c a' session d, G.Arises events i a →
      G.handle c a = some (a', .register session) → Held (G.register i session d) → P events)
    (h : events.foldlM G.after G.start = some y) (hy : Held y.data) : P events := by
  induction events using List.reverseRecOn generalizing y with
  | nil =>
    obtain rfl : G.start = y := Option.some.inj h
    exact (hfresh hy).elim
  | append_singleton events e ih =>
    obtain ⟨x, hx, hstep⟩ := split_last h
    have hresponded : ∀ {r : Response σ A}, y = G.respond x r → Held r.data := by
      intro r hr
      rw [hr, respond] at hy
      split at hy
      · exact (hfresh hy).elim
      · exact hy
    rcases after_cases hstep with ⟨q, -, -, hr⟩ | ⟨-, -, hr⟩ | ⟨r, -, -, hr⟩ |
      ⟨i, c, a, a', f, -, ha, hf, hr⟩
    · exact (haccept q (hresponded hr)).elim
    · rw [hr] at hy
      exact (hfresh hy).elim
    · exact hP _ _ (ih hx (hreceive r x.data (hresponded hr)))
    · rw [hr] at hy
      cases f with
      | keep => exact hP _ _ (ih hx hy)
      | cleanup => exact (hfresh hy).elim
      | register session => exact hP _ _ (hregister _ _ _ _ _ _ _ (attempt_arises hx ha) hf hy)
      | disconnect =>
        simp only [apply] at hy
        split at hy
        · exact (hfresh hy).elim
        · exact hP _ _ (ih hx hy)

end Traces

end CloudVM.Gateway
