import CloudVM.Framework.Process
import Mathlib.Data.List.Basic

/-!
# Runs and interleavings

A run is a finite sequence of labelled steps. A pool holds a shared state and any number of
processes over one interface; in each step one process gets the answer to the call it waits
for, a new process starts, one is given up, or the surroundings change the shared state on
their own.
Every order of these steps is a run of the pool.
-/

namespace CloudVM

section Run

variable {σ ℓ : Type}

/-- `Run step s trace t`: a run from `s` to `t`; the trace holds each label with the state
reached by it, oldest first. -/
inductive Run (step : σ → ℓ → σ → Prop) (s : σ) : List (ℓ × σ) → σ → Prop
  | nil : Run step s [] s
  | snoc {trace : List (ℓ × σ)} {t u : σ} {l : ℓ} (h : Run step s trace t) (hs : step t l u) :
      Run step s (trace ++ [(l, u)]) u

variable {step : σ → ℓ → σ → Prop} {s t u : σ} {trace : List (ℓ × σ)}

/-- A property kept by every step holds at the end of every run. -/
theorem Run.invariant {J : σ → Prop} (h : Run step s trace t) (h0 : J s)
    (hstep : ∀ t l u, J t → step t l u → J u) : J t := by
  induction h with
  | nil => exact h0
  | snoc _ hs ih => exact hstep _ _ _ ih hs

/-- Every entry of a trace was reached by its label from a state satisfying the invariant. -/
theorem Run.entry {J : σ → Prop} (h : Run step s trace t) (h0 : J s)
    (hstep : ∀ t l u, J t → step t l u → J u) {l : ℓ} {u : σ} (hm : (l, u) ∈ trace) :
    ∃ t, J t ∧ step t l u := by
  induction h with
  | nil => simp at hm
  | snoc hr hs ih =>
    rcases List.mem_append.mp hm with hm | hm
    · exact ih hm
    · simp only [List.mem_singleton, Prod.mk.injEq] at hm
      obtain ⟨rfl, rfl⟩ := hm
      exact ⟨_, hr.invariant h0 hstep, hs⟩

theorem Run.single {l : ℓ} (h : step s l t) : Run step s [(l, t)] t := .snoc .nil h

theorem Run.append {trace' : List (ℓ × σ)} (h : Run step s trace t) (h' : Run step t trace' u) :
    Run step s (trace ++ trace') u := by
  induction h' with
  | nil => simpa using h
  | snoc _ hs ih =>
    rw [← List.append_assoc]
    exact .snoc ih hs

theorem Run.head {l : ℓ} {trace' : List (ℓ × σ)} (h : step s l t) (h' : Run step t trace' u) :
    Run step s ((l, t) :: trace') u := (Run.single h).append h'

theorem Run.mono {step' : σ → ℓ → σ → Prop} (h : Run step s trace t)
    (hm : ∀ t l u, step t l u → step' t l u) : Run step' s trace t := by
  induction h with
  | nil => exact .nil
  | snoc _ hs ih => exact .snoc ih (hm _ _ _ hs)

theorem Run.eq_of_nil (h : Run step s [] t) : t = s := by
  generalize htrace : [] = trace at h
  cases h with
  | nil => rfl
  | snoc _ _ => simp at htrace

theorem Run.uncons {l : ℓ} {rest : List (ℓ × σ)} (h : Run step s ((l, t) :: rest) u) :
    step s l t ∧ Run step t rest u := by
  generalize htrace : (l, t) :: rest = trace at h
  induction h generalizing rest with
  | nil => cases htrace
  | @snoc before v w k hr hs ih =>
    cases before with
    | nil =>
      obtain ⟨⟨rfl, rfl⟩, rfl⟩ : (l = k ∧ t = w) ∧ rest = [] := by simpa using htrace
      rw [hr.eq_of_nil] at hs
      exact ⟨hs, .nil⟩
    | cons e before =>
      obtain ⟨rfl, rfl⟩ : (l, t) = e ∧ rest = before ++ [(k, w)] := by simpa using htrace
      obtain ⟨hfirst, hrest⟩ := ih rfl
      exact ⟨hfirst, .snoc hrest hs⟩

/-- What holds at first and in every state on the way holds at the end. -/
theorem Run.of_entries {J : σ → Prop} (h : Run step s trace t) (h0 : J s)
    (hall : ∀ e ∈ trace, J e.2) : J t := by
  cases h with
  | nil => exact h0
  | snoc hr hs => exact hall _ (List.mem_append_right _ List.mem_cons_self)

/-- Every step from `s` along the trace satisfies `P`. -/
def Along (P : σ → ℓ → Prop) : σ → List (ℓ × σ) → Prop
  | _, [] => True
  | s, (l, t) :: rest => P s l ∧ Along P t rest

theorem Run.along_append {P : σ → ℓ → Prop} {rest : List (ℓ × σ)} (h : Run step s trace t) :
    Along P s (trace ++ rest) ↔ Along P s trace ∧ Along P t rest := by
  induction trace generalizing s with
  | nil =>
    rw [h.eq_of_nil]
    simp [Along]
  | cons e before ih =>
    obtain ⟨l, u⟩ := e
    have hrest := ih h.uncons.2
    simp only [List.cons_append, Along, hrest, and_assoc]

/-- Where each step relates its two states by `R` exactly if it satisfies `P`, a run is a chain
for `R` exactly if all its steps satisfy `P`. -/
theorem Run.isChain_iff {J : σ → Prop} {R : σ → σ → Prop} {P : σ → ℓ → Prop}
    (hstep : ∀ t l u, J t → step t l u → J u)
    (hP : ∀ t l u, J t → step t l u → (R t u ↔ P t l)) (h : Run step s trace u) (h0 : J s) :
    (s :: trace.map Prod.snd).IsChain R ↔ Along P s trace := by
  induction trace generalizing s with
  | nil => simp [Along]
  | cons e rest ih =>
    obtain ⟨l, t⟩ := e
    obtain ⟨hs, hrest⟩ := h.uncons
    rw [List.map_cons, List.isChain_cons_cons, ih hrest (hstep s l t h0 hs), hP s l t h0 hs]
    rfl

/-- Where a step keeps `Q` exactly if it satisfies `P`, `Q` holds all along a run exactly if all
its steps satisfy `P`. -/
theorem Run.forall_iff {J Q : σ → Prop} {P : σ → ℓ → Prop}
    (hstep : ∀ t l u, J t → step t l u → J u)
    (hP : ∀ t l u, J t → Q t → step t l u → (Q u ↔ P t l)) (h : Run step s trace u) (h0 : J s)
    (hs : Q s) : (∀ e ∈ trace, Q e.2) ↔ Along P s trace := by
  induction trace generalizing s with
  | nil => simp [Along]
  | cons e rest ih =>
    obtain ⟨l, t⟩ := e
    obtain ⟨hfirst, hrest⟩ := h.uncons
    have hQ := hP s l t h0 hs hfirst
    rw [List.forall_mem_cons]
    constructor
    · rintro ⟨ht, hall⟩
      exact ⟨hQ.mp ht, (ih hrest (hstep s l t h0 hfirst) ht).mp hall⟩
    · rintro ⟨hp, hall⟩
      have ht := hQ.mpr hp
      exact ⟨ht, (ih hrest (hstep s l t h0 hfirst) ht).mpr hall⟩

/-- What steps with `P` keep holds at the end of a run whose steps all satisfy `P`. -/
theorem Run.invariant_along {J : σ → Prop} {P : σ → ℓ → Prop}
    (hstep : ∀ t l u, J t → P t l → step t l u → J u) (h : Run step s trace u) (h0 : J s)
    (hP : Along P s trace) : J u := by
  induction trace generalizing s with
  | nil =>
    rw [h.eq_of_nil]
    exact h0
  | cons e rest ih =>
    obtain ⟨l, t⟩ := e
    obtain ⟨hfirst, hrest⟩ := h.uncons
    exact ih hrest (hstep s l t h0 hP.1 hfirst) hP.2

/-- It holds in every state on the way, too. -/
theorem Run.forall_along {J : σ → Prop} {P : σ → ℓ → Prop}
    (hstep : ∀ t l u, J t → P t l → step t l u → J u) (h : Run step s trace u) (h0 : J s)
    (hP : Along P s trace) : ∀ e ∈ trace, J e.2 := by
  induction trace generalizing s with
  | nil => simp
  | cons e rest ih =>
    obtain ⟨l, t⟩ := e
    obtain ⟨hfirst, hrest⟩ := h.uncons
    have ht := hstep s l t h0 hP.1 hfirst
    exact List.forall_mem_cons.mpr ⟨ht, ih hrest ht hP.2⟩

/-- What holds of every step from a state with the invariant holds all along a run. -/
theorem Run.along_of {J : σ → Prop} {P Q : σ → ℓ → Prop}
    (hstep : ∀ t l u, J t → P t l → step t l u → J u) (hQ : ∀ t l, J t → P t l → Q t l)
    (h : Run step s trace u) (h0 : J s) (hP : Along P s trace) : Along Q s trace := by
  induction trace generalizing s with
  | nil => trivial
  | cons e rest ih =>
    obtain ⟨l, t⟩ := e
    obtain ⟨hfirst, hrest⟩ := h.uncons
    exact ⟨hQ s l h0 hP.1, ih hrest (hstep s l t h0 hP.1 hfirst) hP.2⟩

/-- What holds all along a run holds of the step after its part. -/
theorem Run.of_along {Q : σ → ℓ → Prop} {rest : List (ℓ × σ)} {l : ℓ} (h : Run step s trace t)
    (hQ : Along Q s (trace ++ (l, u) :: rest)) : Q t l := (h.along_append.mp hQ).2.1

/-- Some step along the trace relates its two states by `P`. -/
def Sometime (P : σ → ℓ → σ → Prop) : σ → List (ℓ × σ) → Prop
  | _, [] => False
  | s, (l, t) :: rest => P s l t ∨ Sometime P t rest

/-- Where a step keeps `Q` exactly if it is none of `P`, `Q` holds all along a run exactly if no
step of it is one of `P`. -/
theorem Run.forall_iff_not_sometime {Q : σ → Prop} {P : σ → ℓ → σ → Prop}
    (hP : ∀ t l u, Q t → step t l u → (Q u ↔ ¬ P t l u)) (h : Run step s trace u) (hs : Q s) :
    (∀ e ∈ trace, Q e.2) ↔ ¬ Sometime P s trace := by
  induction trace generalizing s with
  | nil => simp [Sometime]
  | cons e rest ih =>
    obtain ⟨l, t⟩ := e
    obtain ⟨hfirst, hrest⟩ := h.uncons
    have hQ := hP s l t hs hfirst
    rw [List.forall_mem_cons, Sometime, not_or]
    constructor
    · rintro ⟨ht, hall⟩
      exact ⟨hQ.mp ht, (ih hrest ht).mp hall⟩
    · rintro ⟨hp, hall⟩
      have ht := hQ.mpr hp
      exact ⟨ht, (ih hrest ht).mpr hall⟩

/-- Some run from `s` ends in a state with `Q`. -/
def Reaches (step : σ → ℓ → σ → Prop) (s : σ) (Q : σ → Prop) : Prop :=
  ∃ trace t, Run step s trace t ∧ Q t

theorem Reaches.here {Q : σ → Prop} (h : Q s) : Reaches step s Q := ⟨_, _, .nil, h⟩

theorem Reaches.next {Q : σ → Prop} {l : ℓ} (h : step s l t) (h' : Reaches step t Q) :
    Reaches step s Q := by
  obtain ⟨trace, u, hr, hq⟩ := h'
  exact ⟨_, u, .head h hr, hq⟩

theorem Reaches.trans {Q Q' : σ → Prop} (h : Reaches step s Q)
    (h' : ∀ t, Q t → Reaches step t Q') : Reaches step s Q' := by
  obtain ⟨trace, t, hrun, hQ⟩ := h
  obtain ⟨trace', u, hrun', hQ'⟩ := h' t hQ
  exact ⟨_, u, hrun.append hrun', hQ'⟩

theorem Reaches.imp {Q Q' : σ → Prop} (h : Reaches step s Q) (hQ : ∀ t, Q t → Q' t) :
    Reaches step s Q' :=
  h.trans fun t ht => .here (hQ t ht)

theorem Reaches.mono {step' : σ → ℓ → σ → Prop} {Q : σ → Prop} (h : Reaches step s Q)
    (hm : ∀ t l u, step t l u → step' t l u) : Reaches step' s Q := by
  obtain ⟨trace, t, hrun, hQ⟩ := h
  exact ⟨trace, t, hrun.mono hm, hQ⟩

/-- A state that is reached by steps with `P` is reached by a run along which `P` holds. -/
theorem Reaches.along {P : σ → ℓ → Prop} {Q : σ → Prop}
    (h : Reaches (fun s l t => step s l t ∧ P s l) s Q) :
    ∃ trace t, Run step s trace t ∧ Along P s trace ∧ Q t := by
  obtain ⟨trace, t, hrun, hQ⟩ := h
  refine ⟨trace, t, hrun.mono fun _ _ _ h => h.1, ?_, hQ⟩
  clear hQ
  induction hrun with
  | nil => trivial
  | snoc hr hs ih =>
    have hrun := hr.mono fun _ _ _ h => h.1
    exact hrun.along_append.mpr ⟨ih, hs.2, trivial⟩

/-- A state that is reached by steps other than `P` is reached by a run without such a step. -/
theorem Reaches.never {P : σ → ℓ → σ → Prop} {Q : σ → Prop}
    (h : Reaches (fun s l t => step s l t ∧ ¬ P s l t) s Q) :
    ∃ trace t, Run step s trace t ∧ ¬ Sometime P s trace ∧ Q t := by
  obtain ⟨trace, t, hrun, hQ⟩ := h
  refine ⟨trace, t, hrun.mono fun _ _ _ h => h.1, ?_, hQ⟩
  clear hQ
  induction trace generalizing s with
  | nil => exact id
  | cons e rest ih =>
    obtain ⟨hfirst, hrest⟩ := hrun.uncons
    rintro (hP | hP)
    · exact hfirst.2 hP
    · exact ih hrest hP

end Run

section Pool

/-- A shared state and the processes that work on it. -/
structure Pool (I : Interface) (ε α σ : Type) where
  state : σ
  procs : List (Process I ε α)

/-- What happened in one step of a pool. -/
inductive PoolLabel (I : Interface) where
  | act (i : Nat) (c : I.Call) (r : I.Answer c)
  | start
  | crash
  | surroundings

/-- How the outside answers calls, which processes may start, and what else may change. -/
structure Surroundings (I : Interface) (ε α σ : Type) where
  effect : (c : I.Call) → σ → I.Answer c → σ → Prop
  start : σ → Process I ε α → σ → Prop
  change : σ → σ → Prop

variable {I : Interface} {ε α σ : Type}

/-- One step of a pool. -/
inductive Pool.Step (E : Surroundings I ε α σ) :
    Pool I ε α σ → PoolLabel I → Pool I ε α σ → Prop
  | act {s s' : σ} {procs : List (Process I ε α)} {i : Nat} {c : I.Call}
      {k : I.Answer c → Process I ε α} {r : I.Answer c}
      (hp : procs[i]? = some (.call c k)) (he : E.effect c s r s') :
      Pool.Step E ⟨s, procs⟩ (.act i c r) ⟨s', procs.set i (k r)⟩
  | start {s s' : σ} {procs : List (Process I ε α)} {p : Process I ε α}
      (hs : E.start s p s') :
      Pool.Step E ⟨s, procs⟩ .start ⟨s', procs ++ [p]⟩
  | crash {s : σ} {procs : List (Process I ε α)} (i : Nat) :
      Pool.Step E ⟨s, procs⟩ .crash ⟨s, procs.eraseIdx i⟩
  | surroundings {s s' : σ} {procs : List (Process I ε α)} (hc : E.change s s') :
      Pool.Step E ⟨s, procs⟩ .surroundings ⟨s', procs⟩

theorem Pool.Step.act_inv {E : Surroundings I ε α σ} {x y : Pool I ε α σ} {i : Nat} {c : I.Call}
    {r : I.Answer c} (h : Pool.Step E x (.act i c r) y) :
    ∃ k, x.procs[i]? = some (.call c k) ∧ E.effect c x.state r y.state ∧
      y.procs = x.procs.set i (k r) := by
  generalize hl : PoolLabel.act i c r = l at h
  cases h with
  | act hp he =>
    simp only [PoolLabel.act.injEq] at hl
    obtain ⟨rfl, rfl, hr⟩ := hl
    obtain rfl := eq_of_heq hr
    exact ⟨_, hp, he, rfl⟩
  | start hs => simp at hl
  | crash i => simp at hl
  | surroundings hc => simp at hl

/-- What holds of every other process and of the new one holds of the whole pool. -/
theorem forall_mem_set {L : Process I ε α → Prop} {procs : List (Process I ε α)} {i : Nat}
    {q : Process I ε α} (h : ∀ j p, j ≠ i → procs[j]? = some p → L p) (hq : L q) :
    ∀ p ∈ procs.set i q, L p := by
  intro p hp
  obtain ⟨j, hj⟩ := List.mem_iff_getElem?.mp hp
  rw [List.getElem?_set] at hj
  split at hj
  · split at hj
    · cases hj
      exact hq
    · cases hj
  · rename_i hne
    exact h j p (Ne.symm hne) hj

/-- An invariant of the shared state that no answer, start or outside change breaks. -/
theorem Pool.state_invariant {E : Surroundings I ε α σ} {J : σ → Prop}
    (hact : ∀ c s r s', J s → E.effect c s r s' → J s')
    (hstart : ∀ s p s', J s → E.start s p s' → J s')
    (hchange : ∀ s s', J s → E.change s s' → J s')
    (x : Pool I ε α σ) (l : PoolLabel I) (y : Pool I ε α σ)
    (hx : J x.state) (h : Pool.Step E x l y) : J y.state := by
  cases h with
  | act _ he => exact hact _ _ _ _ hx he
  | start hs => exact hstart _ _ _ hx hs
  | crash i => exact hx
  | surroundings hc => exact hchange _ _ hx hc

end Pool

end CloudVM
