import CloudVM.Framework.Requests
import Mathlib.Algebra.Ring.Nat

/-!
# Phases of requests

Often all that matters about the log of a request is how far the request has come. Its phase is
computed from the log, call by call. What a handler guarantees is said of its phase, and what a
server guarantees is an invariant of the shared state and of the phases. A schedule plays one of
the runs, where the answers are given by a function.
-/

namespace CloudVM

variable {I : Interface} {ε α ρ σ τ : Type}

/-- What holds of a process over an abstract state holds over a state that is mapped to it. -/
theorem Process.Wp.pullback {P : τ → I.Call → Prop} {effect : (c : I.Call) → τ → I.Answer c → τ → Prop}
    {effect' : (c : I.Call) → σ → I.Answer c → σ → Prop} (f : σ → τ)
    (hf : ∀ c s r s', effect' c s r s' → effect c (f s) r (f s'))
    {Q : Except ε α → τ → Prop} {p : Process I ε α} {s : σ} (h : p.Wp P effect Q (f s)) :
    p.Wp (fun s c => P (f s) c) effect' (fun out s => Q out (f s)) s := by
  induction p generalizing s with
  | ret a => exact h
  | raise e => exact h
  | call c k ih => exact ⟨h.1, fun r s' hr => ih r (h.2 r (f s') (hf c s r s' hr))⟩

/-- Phases for the requests of a server, and what every handler guarantees in each of them. -/
structure Server.Phased (S : Server I ε α ρ σ) (Φ : Type) where
  start : ρ → Φ
  advance : ρ → Φ → (c : I.Call) → I.Answer c → Φ
  fits : (c : I.Call) → I.Answer c → Prop
  permits : ρ → Φ → I.Call → Prop
  returns : ρ → α → Φ → Prop
  sound : ∀ q log c s r s', S.effect q log c s r s' → fits c r
  holds : ∀ q, (S.handler q).Wp (permits q) (fun c φ r φ' => fits c r ∧ φ' = advance q φ c r)
    (Process.Post (returns q) fun _ _ => True) (start q)

namespace Server.Phased

variable {S : Server I ε α ρ σ} {Φ : Type} (P : S.Phased Φ)

def phaseOf (q : ρ) (log : List (Event I)) : Φ :=
  log.foldl (fun φ e => P.advance q φ e.1 e.2) (P.start q)

def phase (task : Task I ε α ρ) : Φ := P.phaseOf task.request task.log

@[simp] theorem phase_begin (q : ρ) (p : Process I ε α) : P.phase ⟨q, [], p⟩ = P.start q := rfl

theorem phase_act (q : ρ) (log : List (Event I)) (c : I.Call) (r : I.Answer c) (p : Process I ε α) :
    P.phase ⟨q, log ++ [⟨c, r⟩], p⟩ = P.advance q (P.phaseOf q log) c r := by
  simp [phase, phaseOf]

def contract : S.Contract where
  fits := P.fits
  permits := fun q log c => P.permits q (P.phaseOf q log) c
  returns := fun q a log => P.returns q a (P.phaseOf q log)
  sound := P.sound
  holds := by
    intro q
    have hpull : (S.handler q).Wp _ (logged P.fits) _ [] := (P.holds q).pullback (P.phaseOf q) ?_
    · apply hpull.mono
      intro out log h
      cases out <;> exact h
    · rintro c log r log' ⟨hr, rfl⟩
      exact ⟨hr, by simp [phaseOf]⟩

/-- Every task of the stage does what its phase permits. -/
def Kept (x : Stage I ε α ρ σ) : Prop := ∀ task ∈ x.tasks, P.contract.Kept task

theorem kept_step {x y : Stage I ε α ρ σ} {l : StageLabel I ρ} (hx : P.Kept x) (h : S.Step x l y) :
    P.Kept y := P.contract.kept_step x l y hx h

variable {P}

theorem Kept.returns {x : Stage I ε α ρ σ} (hx : P.Kept x) {task : Task I ε α ρ}
    (hm : task ∈ x.tasks) {a : α} (ha : task.rest = .ret a) :
    P.returns task.request a (P.phase task) := by
  have hk := hx task hm
  rw [Contract.Kept, ha] at hk
  exact hk

theorem Kept.act {x y : Stage I ε α ρ σ} (hx : P.Kept x) {i : Nat} {c : I.Call} {r : I.Answer c}
    (h : S.Step x (.act i c r) y) :
    ∃ task task', x.tasks[i]? = some task ∧ task.Live ∧ y.tasks = x.tasks.set i task' ∧
      task'.request = task.request ∧ P.permits task.request (P.phase task) c ∧
      P.phase task' = P.advance task.request (P.phase task) c r ∧
      S.effect task.request task.log c x.state r y.state := by
  generalize hl : StageLabel.act i c r = l at h
  cases h with
  | begin q => simp at hl
  | @act s s' tasks j q log c' k r' ht he =>
    simp only [StageLabel.act.injEq] at hl
    obtain ⟨rfl, rfl, hr⟩ := hl
    obtain rfl := eq_of_heq hr
    have hk := hx _ (List.mem_of_getElem? ht)
    exact ⟨_, _, ht, ⟨c, k, rfl⟩, rfl, rfl, hk.1, P.phase_act q log c r (k r), he⟩
  | crash e ht hl' => simp at hl
  | change hc => simp at hl

end Server.Phased

/-- How many entries satisfy a test after one of them was replaced. -/
theorem countP_set_add {xs : List τ} {i : Nat} {x : τ} (h : xs[i]? = some x) (p : τ → Bool) (y : τ) :
    (xs.set i y).countP p + (p x).toNat = xs.countP p + (p y).toNat := by
  obtain ⟨hi, rfl⟩ := List.getElem?_eq_some_iff.mp h
  have hle : (p xs[i]).toNat ≤ xs.countP p := by
    cases hp : p xs[i] with
    | false => simp
    | true =>
      have hpos := List.countP_pos_iff.mpr ⟨xs[i], List.getElem_mem hi, hp⟩
      simpa using hpos
  rw [List.countP_set hi]
  cases hx : p xs[i] <;> cases hy : p y <;>
    simp only [hx, Bool.toNat_true, Bool.toNat_false, if_true, Bool.false_eq_true, if_false] at hle ⊢ <;>
    omega

section Schedule

/-- The next move of a schedule: a request begins, or a task gets its answer. -/
inductive Move (ρ : Type) where
  | begin (q : ρ)
  | act (i : Nat)

variable (S : Server I ε α ρ σ) (answer : (c : I.Call) → σ → I.Answer c × σ)

def Move.apply (x : Stage I ε α ρ σ) : Move ρ → Option (Stage I ε α ρ σ)
  | .begin q => some ⟨x.state, x.tasks ++ [⟨q, [], S.handler q⟩]⟩
  | .act i =>
    match x.tasks[i]? with
    | some ⟨q, log, .call c k⟩ =>
      let r := answer c x.state
      some ⟨r.2, x.tasks.set i ⟨q, log ++ [⟨c, r.1⟩], k r.1⟩⟩
    | _ => none

def play (x : Stage I ε α ρ σ) (moves : List (Move ρ)) : Option (Stage I ε α ρ σ) :=
  moves.foldlM (Move.apply S answer) x

variable {S answer}

theorem Move.step (ha : ∀ q log c s, S.effect q log c s (answer c s).1 (answer c s).2)
    {x y : Stage I ε α ρ σ} {m : Move ρ} (h : m.apply S answer x = some y) : ∃ l, S.Step x l y := by
  cases m with
  | begin q =>
    obtain rfl := Option.some.inj h
    exact ⟨_, .begin q⟩
  | act i =>
    simp only [Move.apply] at h
    split at h
    case h_1 q log c k ht =>
      obtain rfl := Option.some.inj h
      exact ⟨_, .act ht (ha q log c x.state)⟩
    case h_2 => cases h

def Move.begins : Move ρ → ℕ
  | .begin _ => 1
  | .act _ => 0

theorem Move.length_apply {x y : Stage I ε α ρ σ} {m : Move ρ} (h : m.apply S answer x = some y) :
    y.tasks.length = x.tasks.length + m.begins := by
  cases m with
  | begin q =>
    obtain rfl := Option.some.inj h
    simp [Move.begins]
  | act i =>
    simp only [Move.apply] at h
    split at h
    · obtain rfl := Option.some.inj h
      simp [Move.begins]
    · cases h

/-- A schedule that can be played is a run. What holds of every stage with at most `n` tasks holds
all along it, where it begins so many tasks at most. -/
theorem run_of_play_along (ha : ∀ q log c s, S.effect q log c s (answer c s).1 (answer c s).2)
    {x y : Stage I ε α ρ σ} {moves : List (Move ρ)} (h : play S answer x moves = some y)
    {P : Stage I ε α ρ σ → StageLabel I ρ → Prop} {n : ℕ}
    (hP : ∀ z l z', S.Step z l z' → z.tasks.length ≤ n → P z l)
    (hn : x.tasks.length + (moves.map Move.begins).sum ≤ n) :
    ∃ trace, Run S.Step x trace y ∧ Along P x trace := by
  induction moves generalizing x with
  | nil =>
    obtain rfl := Option.some.inj h
    exact ⟨[], .nil, trivial⟩
  | cons m moves ih =>
    rw [play, List.foldlM_cons, Option.bind_eq_bind, Option.bind_eq_some_iff] at h
    obtain ⟨z, hz, h⟩ := h
    have hlen := Move.length_apply hz
    rw [List.map_cons, List.sum_cons] at hn
    obtain ⟨l, hl⟩ := Move.step ha hz
    obtain ⟨trace, hrun, halong⟩ := ih h (by omega)
    exact ⟨_, .head hl hrun, hP x l z hl (by omega), halong⟩

theorem run_of_play (ha : ∀ q log c s, S.effect q log c s (answer c s).1 (answer c s).2)
    {x y : Stage I ε α ρ σ} {moves : List (Move ρ)} (h : play S answer x moves = some y) :
    ∃ trace, Run S.Step x trace y := by
  obtain ⟨trace, hrun, -⟩ := run_of_play_along ha h (P := fun _ _ => True)
    (fun _ _ _ _ _ => trivial) (Nat.le_refl _)
  exact ⟨trace, hrun⟩

end Schedule

end CloudVM
