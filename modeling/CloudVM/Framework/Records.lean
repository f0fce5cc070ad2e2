import CloudVM.Framework.Requests

/-!
# What requests have done

A fact about the log of some request, once it is there, stays there: logs grow and no request is
forgotten. What a state holds can therefore be traced back to the requests that put it there.
-/

namespace CloudVM

variable {I : Interface} {ε α ρ σ : Type}

/-- A step leaves each request with its log, or with a longer one. -/
theorem Server.Step.grows {S : Server I ε α ρ σ} {x y : Stage I ε α ρ σ} {l : StageLabel I ρ}
    (h : S.Step x l y) {task : Task I ε α ρ} (ht : task ∈ x.tasks) :
    ∃ task' ∈ y.tasks, task'.request = task.request ∧ task.log ⊆ task'.log := by
  have hset : ∀ {tasks : List (Task I ε α ρ)} {i : ℕ} {old new : Task I ε α ρ}, task ∈ tasks →
      tasks[i]? = some old → new.request = old.request → old.log ⊆ new.log →
      ∃ task' ∈ tasks.set i new, task'.request = task.request ∧ task.log ⊆ task'.log := by
    intro tasks i old new hmem hi hq hlog
    obtain ⟨j, hj⟩ := List.mem_iff_getElem?.mp hmem
    by_cases hij : i = j
    · subst hij
      obtain rfl := Option.some.inj (hi.symm.trans hj)
      have hlt := (List.getElem?_eq_some_iff.mp hi).1
      exact ⟨new, List.mem_of_getElem? (List.getElem?_set_self hlt), hq, hlog⟩
    · refine ⟨task, List.mem_of_getElem? (i := j) ?_, rfl, fun _ he => he⟩
      rw [List.getElem?_set_ne hij, hj]
  cases h with
  | begin q => exact ⟨task, List.mem_append_left _ ht, rfl, fun _ he => he⟩
  | act hi he => exact hset ht hi rfl (List.subset_append_left _ _)
  | crash e hi hl => exact hset ht hi rfl fun _ he => he
  | change hc => exact ⟨task, ht, rfl, fun _ he => he⟩

def Stage.Recorded (x : Stage I ε α ρ σ) (F : ρ → List (Event I) → Prop) : Prop :=
  ∃ task ∈ x.tasks, F task.request task.log

def Lasting (F : ρ → List (Event I) → Prop) : Prop :=
  ∀ q log log', log ⊆ log' → F q log → F q log'

variable {S : Server I ε α ρ σ} {x y : Stage I ε α ρ σ} {F : ρ → List (Event I) → Prop}

theorem Stage.Recorded.step {l : StageLabel I ρ} (hx : x.Recorded F) (hF : Lasting F)
    (h : S.Step x l y) : y.Recorded F := by
  obtain ⟨task, ht, hf⟩ := hx
  obtain ⟨task', ht', hq, hlog⟩ := h.grows ht
  exact ⟨task', ht', hq ▸ hF _ _ _ hlog hf⟩

/-- What the log of a request says before its call is recorded after it. -/
theorem Stage.Recorded.of_task {l : StageLabel I ρ} {task : Task I ε α ρ} (ht : task ∈ x.tasks)
    (hF : Lasting F) (hf : F task.request task.log) (h : S.Step x l y) : y.Recorded F :=
  Recorded.step ⟨task, ht, hf⟩ hF h

theorem Server.Step.log_at {l : StageLabel I ρ} (h : S.Step x l y) {j : Nat} {task : Task I ε α ρ}
    (hj : y.tasks[j]? = some task) {e : Event I} (he : e ∈ task.log) :
    (∃ old, x.tasks[j]? = some old ∧ old.request = task.request ∧ e ∈ old.log) ∨
      ∃ q log, S.effect q log e.1 x.state e.2 y.state := by
  cases h with
  | begin q =>
    rcases getElem?_append_cases hj with ⟨-, rfl⟩ | hj
    · cases he
    · exact .inl ⟨task, hj, rfl, he⟩
  | act hi heffect =>
    rcases getElem?_set_cases hj with ⟨rfl, rfl⟩ | ⟨-, hj⟩
    · rcases List.mem_append.mp he with he | he
      · exact .inl ⟨_, hi, rfl, he⟩
      · obtain rfl := List.mem_singleton.mp he
        exact .inr ⟨_, _, heffect⟩
    · exact .inl ⟨task, hj, rfl, he⟩
  | @crash s tasks i old e' hi hl =>
    rcases getElem?_set_cases hj with ⟨rfl, rfl⟩ | ⟨-, hj⟩
    · exact .inl ⟨old, hi, rfl, he⟩
    · exact .inl ⟨task, hj, rfl, he⟩
  | change hc => exact .inl ⟨task, hj, rfl, he⟩

theorem Server.Step.mem_log {l : StageLabel I ρ} (h : S.Step x l y) {task : Task I ε α ρ}
    (ht : task ∈ y.tasks) {e : Event I} (he : e ∈ task.log) :
    (∃ old ∈ x.tasks, e ∈ old.log) ∨
      ∃ q log, S.effect q log e.1 x.state e.2 y.state := by
  obtain ⟨j, hj⟩ := List.mem_iff_getElem?.mp ht
  rcases h.log_at hj he with ⟨old, hold, -, he⟩ | heffect
  · exact .inl ⟨old, List.mem_of_getElem? hold, he⟩
  · exact .inr heffect

end CloudVM
