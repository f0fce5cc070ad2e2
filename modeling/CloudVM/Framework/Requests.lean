import CloudVM.Framework.Logic
import CloudVM.Framework.Run

/-!
# Requests with their logs

A server answers requests: each request is handled by a process, and any number of them are
under way over one shared state. A task keeps the calls it has made with their answers. Its log
grows by its own calls only, so what a handler guarantees in terms of its log holds in every
interleaving.
-/

namespace CloudVM

/-- A call together with its answer. -/
abbrev Event (I : Interface) := (c : I.Call) × I.Answer c

/-- A request under way, or ended: what it asked, what it has done and what it will do. -/
structure Task (I : Interface) (ε α ρ : Type) where
  request : ρ
  log : List (Event I)
  rest : Process I ε α

/-- A shared state and the requests that work on it. -/
structure Stage (I : Interface) (ε α ρ σ : Type) where
  state : σ
  tasks : List (Task I ε α ρ)

/-- What happened in one step of a server. -/
inductive StageLabel (I : Interface) (ρ : Type) where
  | begin (q : ρ)
  | act (i : Nat) (c : I.Call) (r : I.Answer c)
  | crash
  | change

/-- The handler of each request, how its calls are answered, and what else may change. The
effect of a call may depend on the request and its log, so that ghost state can record them. -/
structure Server (I : Interface) (ε α ρ σ : Type) where
  handler : ρ → Process I ε α
  effect : ρ → List (Event I) → (c : I.Call) → σ → I.Answer c → σ → Prop
  change : σ → σ → Prop

variable {I : Interface} {ε α ρ σ : Type}

def Task.Live (task : Task I ε α ρ) : Prop := ∃ c k, task.rest = .call c k

/-- One step of a server. A request that crashes ends with an error and keeps its log. -/
inductive Server.Step (S : Server I ε α ρ σ) :
    Stage I ε α ρ σ → StageLabel I ρ → Stage I ε α ρ σ → Prop
  | begin {s : σ} {tasks : List (Task I ε α ρ)} (q : ρ) :
      Server.Step S ⟨s, tasks⟩ (.begin q) ⟨s, tasks ++ [⟨q, [], S.handler q⟩]⟩
  | act {s s' : σ} {tasks : List (Task I ε α ρ)} {i : Nat} {q : ρ} {log : List (Event I)}
      {c : I.Call} {k : I.Answer c → Process I ε α} {r : I.Answer c}
      (ht : tasks[i]? = some ⟨q, log, .call c k⟩) (he : S.effect q log c s r s') :
      Server.Step S ⟨s, tasks⟩ (.act i c r) ⟨s', tasks.set i ⟨q, log ++ [⟨c, r⟩], k r⟩⟩
  | crash {s : σ} {tasks : List (Task I ε α ρ)} {i : Nat} {task : Task I ε α ρ} (e : ε)
      (ht : tasks[i]? = some task) (hl : task.Live) :
      Server.Step S ⟨s, tasks⟩ .crash ⟨s, tasks.set i { task with rest := .raise e }⟩
  | change {s s' : σ} {tasks : List (Task I ε α ρ)} (hc : S.change s s') :
      Server.Step S ⟨s, tasks⟩ .change ⟨s', tasks⟩

/-- The task that got an answer was waiting for it. -/
theorem Server.Step.act_inv {S : Server I ε α ρ σ} {x y : Stage I ε α ρ σ} {i : Nat} {c : I.Call}
    {r : I.Answer c} (h : S.Step x (.act i c r) y) :
    ∃ q log k, x.tasks[i]? = some ⟨q, log, .call c k⟩ := by
  generalize hl : StageLabel.act i c r = l at h
  cases h with
  | begin q => simp at hl
  | act ht he =>
    simp only [StageLabel.act.injEq] at hl
    obtain ⟨rfl, rfl, -⟩ := hl
    exact ⟨_, _, _, ht⟩
  | crash e ht hl' => simp at hl
  | change hc => simp at hl

theorem Server.Step.act_logs {S : Server I ε α ρ σ} {x y : Stage I ε α ρ σ} {i : Nat} {c : I.Call}
    {r : I.Answer c} (h : S.Step x (.act i c r) y) :
    ∃ q log k, x.tasks[i]? = some ⟨q, log, .call c k⟩ ∧
      y.tasks[i]? = some ⟨q, log ++ [⟨c, r⟩], k r⟩ := by
  generalize hl : StageLabel.act i c r = l at h
  cases h with
  | begin q => simp at hl
  | act ht he =>
    simp only [StageLabel.act.injEq] at hl
    obtain ⟨rfl, rfl, hr⟩ := hl
    obtain rfl := eq_of_heq hr
    have hlt := (List.getElem?_eq_some_iff.mp ht).1
    exact ⟨_, _, _, ht, List.getElem?_set_self hlt⟩
  | crash e ht hl' => simp at hl
  | change hc => simp at hl

theorem Server.Step.act_effect {S : Server I ε α ρ σ} {x y : Stage I ε α ρ σ} {i : Nat} {c : I.Call}
    {r : I.Answer c} (h : S.Step x (.act i c r) y) :
    ∃ q log, S.effect q log c x.state r y.state := by
  generalize hl : StageLabel.act i c r = l at h
  cases h with
  | begin q => simp at hl
  | act ht he =>
    simp only [StageLabel.act.injEq] at hl
    obtain ⟨rfl, rfl, hr⟩ := hl
    obtain rfl := eq_of_heq hr
    exact ⟨_, _, he⟩
  | crash e ht hl' => simp at hl
  | change hc => simp at hl

theorem Server.Step.act_last {S : Server I ε α ρ σ} {s s' : σ} {tasks : List (Task I ε α ρ)} {q : ρ}
    {log : List (Event I)} {p : Process I ε α} {c : I.Call} {k : I.Answer c → Process I ε α}
    {r : I.Answer c} (hp : p = .call c k) (he : S.effect q log c s r s') :
    S.Step ⟨s, tasks ++ [⟨q, log, p⟩]⟩ (.act tasks.length c r)
      ⟨s', tasks ++ [⟨q, log ++ [⟨c, r⟩], k r⟩]⟩ := by
  subst hp
  let task : Task I ε α ρ := ⟨q, log, .call c k⟩
  let moved : Task I ε α ρ := ⟨q, log ++ [⟨c, r⟩], k r⟩
  have hlast : (tasks ++ [task])[tasks.length]? = some ⟨q, log, .call c k⟩ := by simp [task]
  have hset : (tasks ++ [task]).set tasks.length moved = tasks ++ [moved] := by simp
  rw [← hset]
  exact .act hlast he

theorem Task.not_live_raise {q : ρ} {log : List (Event I)} {e : ε} :
    ¬ (⟨q, log, .raise e⟩ : Task I ε α ρ).Live := by
  intro h
  obtain ⟨c, k, h⟩ := h
  cases h

theorem getElem?_set_cases {τ : Type} {xs : List τ} {i j : Nat} {x y : τ}
    (h : (xs.set i x)[j]? = some y) : (j = i ∧ y = x) ∨ (j ≠ i ∧ xs[j]? = some y) := by
  rw [List.getElem?_set] at h
  by_cases hij : i = j
  · subst hij
    simp only [if_true] at h
    split at h
    · cases h
      exact .inl ⟨rfl, rfl⟩
    · cases h
  · rw [if_neg hij] at h
    exact .inr ⟨Ne.symm hij, h⟩

theorem getElem?_append_cases {τ : Type} {xs : List τ} {j : Nat} {x y : τ}
    (h : (xs ++ [x])[j]? = some y) : (j = xs.length ∧ y = x) ∨ xs[j]? = some y := by
  rw [List.getElem?_append] at h
  split at h
  · exact .inr h
  · rename_i hj
    obtain ⟨hlt, h⟩ := List.getElem?_eq_some_iff.mp h
    have hlen : j - xs.length < 1 := hlt
    have hz : j - xs.length = 0 := by omega
    simp only [hz, List.getElem_cons_zero] at h
    exact .inl ⟨by omega, h.symm⟩

theorem mem_set_cases {τ : Type} {xs : List τ} {i : Nat} {x y : τ} (h : y ∈ xs.set i x) :
    y = x ∨ ∃ j : Nat, j ≠ i ∧ xs[j]? = some y := by
  obtain ⟨j, hj⟩ := List.mem_iff_getElem?.mp h
  rcases getElem?_set_cases hj with ⟨-, rfl⟩ | ⟨hne, hj⟩
  · exact .inl rfl
  · exact .inr ⟨j, hne, hj⟩

theorem Run.of_log {S : Server I ε α ρ σ} {s : σ} {x : Stage I ε α ρ σ}
    {trace : List (StageLabel I ρ × Stage I ε α ρ σ)} (h : Run S.Step ⟨s, []⟩ trace x) {k : Nat}
    {task : Task I ε α ρ} {e : Event I} (hk : x.tasks[k]? = some task) (he : e ∈ task.log) :
    ∃ before t v after, trace = before ++ (.act k e.1 e.2, v) :: after ∧
      Run S.Step ⟨s, []⟩ before t ∧ S.Step t (.act k e.1 e.2) v ∧ Run S.Step v after x := by
  induction h generalizing task with
  | nil => simp at hk
  | @snoc trace y x l hr hs ih =>
    -- an event of an older log was the label of a step before the last one
    have hold : ∀ b, y.tasks[k]? = some b → e ∈ b.log →
        ∃ before t v after, trace ++ [(l, x)] = before ++ (.act k e.1 e.2, v) :: after ∧
          Run S.Step ⟨s, []⟩ before t ∧ S.Step t (.act k e.1 e.2) v ∧ Run S.Step v after x := by
      intro b hb hmem
      obtain ⟨before, t, v, after, rfl, hbefore, hstep, hafter⟩ := ih hb hmem
      exact ⟨before, t, v, after ++ [(l, x)], by simp, hbefore, hstep, hafter.snoc hs⟩
    cases hs with
    | begin q =>
      rcases getElem?_append_cases hk with ⟨-, rfl⟩ | hk
      · cases he
      · exact hold task hk he
    | @act t t' tasks i q log c next r ht heffect =>
      rcases getElem?_set_cases hk with ⟨rfl, rfl⟩ | ⟨-, hk⟩
      · rcases List.mem_append.mp he with he | he
        · exact hold _ ht he
        · obtain rfl := List.mem_singleton.mp he
          exact ⟨trace, _, _, [], rfl, hr, .act ht heffect, .nil⟩
      · exact hold task hk he
    | @crash t tasks i b e' ht hl =>
      rcases getElem?_set_cases hk with ⟨rfl, rfl⟩ | ⟨-, hk⟩
      · exact hold b ht he
      · exact hold task hk he
    | change hc => exact hold task hk he

theorem Run.to_log {S : Server I ε α ρ σ} {x y z : Stage I ε α ρ σ}
    {trace : List (StageLabel I ρ × Stage I ε α ρ σ)} (h : Run S.Step x trace y) {i : Nat}
    {c : I.Call} {r : I.Answer c} (hm : (.act i c r, z) ∈ trace) :
    ∃ task, y.tasks[i]? = some task ∧ ⟨c, r⟩ ∈ task.log := by
  induction h with
  | nil => simp at hm
  | snoc hr hs ih =>
    rcases List.mem_append.mp hm with hm | hm
    · obtain ⟨task, ht, hlog⟩ := ih hm
      have hlt := (List.getElem?_eq_some_iff.mp ht).1
      cases hs with
      | begin q => exact ⟨task, by rw [List.getElem?_append_left hlt, ht], hlog⟩
      | @act s s' tasks j q log d k b hj he =>
        by_cases hij : j = i
        · subst hij
          obtain rfl := Option.some.inj (hj.symm.trans ht)
          exact ⟨_, List.getElem?_set_self hlt, List.mem_append_left _ hlog⟩
        · exact ⟨task, by rw [List.getElem?_set_ne hij, ht], hlog⟩
      | @crash s tasks j other e hj hl =>
        by_cases hij : j = i
        · subst hij
          obtain rfl := Option.some.inj (hj.symm.trans ht)
          exact ⟨_, List.getElem?_set_self hlt, hlog⟩
        · exact ⟨task, by rw [List.getElem?_set_ne hij, ht], hlog⟩
      | change hc => exact ⟨task, ht, hlog⟩
    · simp only [List.mem_singleton, Prod.mk.injEq] at hm
      obtain ⟨rfl, rfl⟩ := hm
      cases hs with
      | act hj he =>
        have hlt := (List.getElem?_eq_some_iff.mp hj).1
        exact ⟨_, List.getElem?_set_self hlt, by simp⟩

theorem Run.tasks_length {S : Server I ε α ρ σ} {x y : Stage I ε α ρ σ}
    {trace : List (StageLabel I ρ × Stage I ε α ρ σ)} (h : Run S.Step x trace y) :
    x.tasks.length ≤ y.tasks.length := by
  apply h.invariant (J := fun z => x.tasks.length ≤ z.tasks.length) (Nat.le_refl _)
  intro t l u hle hs
  cases hs with
  | begin q =>
    rw [List.length_append]
    exact Nat.le_add_right_of_le hle
  | act ht he => simpa using hle
  | crash e ht hl => simpa using hle
  | change hc => exact hle

/-- The log grows by each call with its answer; each answer is known to fit its call. -/
def logged (fits : (c : I.Call) → I.Answer c → Prop) (c : I.Call) (log : List (Event I))
    (r : I.Answer c) (log' : List (Event I)) : Prop :=
  fits c r ∧ log' = log ++ [⟨c, r⟩]

/-- What every handler guarantees in terms of its log. -/
structure Server.Contract (S : Server I ε α ρ σ) where
  fits : (c : I.Call) → I.Answer c → Prop
  permits : ρ → List (Event I) → I.Call → Prop
  returns : ρ → α → List (Event I) → Prop
  sound : ∀ q log c s r s', S.effect q log c s r s' → fits c r
  holds : ∀ q, (S.handler q).Wp (permits q) (logged fits)
    (Process.Post (returns q) fun _ _ => True) []

namespace Server.Contract

variable {S : Server I ε α ρ σ} (C : S.Contract)

/-- A task that will keep the contract from its log on. -/
def Kept (task : Task I ε α ρ) : Prop :=
  task.rest.Wp (C.permits task.request) (logged C.fits)
    (Process.Post (C.returns task.request) fun _ _ => True) task.log

theorem kept_step (x : Stage I ε α ρ σ) (l : StageLabel I ρ) (y : Stage I ε α ρ σ)
    (hx : ∀ task ∈ x.tasks, C.Kept task) (h : S.Step x l y) : ∀ task ∈ y.tasks, C.Kept task := by
  cases h with
  | begin q =>
    intro task hm
    rcases List.mem_append.mp hm with hm | hm
    · exact hx task hm
    · obtain rfl := List.mem_singleton.mp hm
      exact C.holds q
  | act ht he =>
    intro task hm
    rcases mem_set_cases hm with rfl | ⟨j, -, hj⟩
    · have hk := hx _ (List.mem_of_getElem? ht)
      exact hk.2 _ _ ⟨C.sound _ _ _ _ _ _ he, rfl⟩
    · exact hx task (List.mem_of_getElem? hj)
  | crash e ht hl =>
    intro task hm
    rcases mem_set_cases hm with rfl | ⟨j, -, hj⟩
    · exact trivial
    · exact hx task (List.mem_of_getElem? hj)
  | change hc => exact hx

/-- In every interleaving every task keeps the contract. -/
theorem kept {s : σ} {trace : List (StageLabel I ρ × Stage I ε α ρ σ)} {y : Stage I ε α ρ σ}
    (h : Run S.Step ⟨s, []⟩ trace y) : ∀ task ∈ y.tasks, C.Kept task :=
  h.invariant (by simp) C.kept_step

/-- What no permitted call breaks holds of the log of every task, wherever it has got to. -/
theorem log_invariant {J : ρ → List (Event I) → Prop} (h0 : ∀ q, J q [])
    (hact : ∀ q log c r, J q log → C.permits q log c → C.fits c r → J q (log ++ [⟨c, r⟩]))
    {s : σ} {trace : List (StageLabel I ρ × Stage I ε α ρ σ)} {y : Stage I ε α ρ σ}
    (h : Run S.Step ⟨s, []⟩ trace y) : ∀ task ∈ y.tasks, J task.request task.log := by
  induction h with
  | nil => simp
  | snoc hr hs ih =>
    have hkept := C.kept hr
    cases hs with
    | begin q =>
      intro task hm
      rcases List.mem_append.mp hm with hm | hm
      · exact ih task hm
      · obtain rfl := List.mem_singleton.mp hm
        exact h0 q
    | act ht he =>
      intro task hm
      have hmem := List.mem_of_getElem? ht
      rcases mem_set_cases hm with rfl | ⟨j, -, hj⟩
      · exact hact _ _ _ _ (ih _ hmem) (hkept _ hmem).1 (C.sound _ _ _ _ _ _ he)
      · exact ih task (List.mem_of_getElem? hj)
    | crash e ht hl =>
      intro task hm
      rcases mem_set_cases hm with rfl | ⟨j, -, hj⟩
      · have hlog := ih _ (List.mem_of_getElem? ht)
        exact hlog
      · exact ih task (List.mem_of_getElem? hj)
    | change hc => exact ih

end Server.Contract

end CloudVM
