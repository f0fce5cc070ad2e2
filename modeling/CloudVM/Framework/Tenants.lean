import CloudVM.Framework.Requests

/-!
# Tenants of a server

Each request belongs to a tenant, and each tenant has a view of the shared state. If the calls of a
request work on the view of its tenant as on the whole, and leave the views of all others alone,
the part of a run that belongs to one tenant is a run where nobody else was there. What a call may
rely on is what the log of its request has learned about the state.
-/

namespace CloudVM

section Filter

variable {τ : Type} {p : τ → Bool} {xs : List τ} {i : Nat} {x y : τ}

theorem filter_set_of_neg (h : xs[i]? = some x) (hx : p x = false) (hy : p y = false) :
    (xs.set i y).filter p = xs.filter p := by
  induction xs generalizing i with
  | nil => rfl
  | cons z xs ih =>
    cases i with
    | zero =>
      obtain rfl := Option.some.inj h
      simp [hx, hy]
    | succ i =>
      have hrest := ih h
      simp only [List.set_cons_succ, List.filter_cons, hrest]

theorem filter_set_of_pos (h : xs[i]? = some x) (hx : p x = true) :
    ∃ j, (xs.filter p)[j]? = some x ∧
      ∀ y, p y = true → (xs.set i y).filter p = (xs.filter p).set j y := by
  induction xs generalizing i with
  | nil => simp at h
  | cons z xs ih =>
    cases i with
    | zero =>
      obtain rfl := Option.some.inj h
      refine ⟨0, by simp [hx], ?_⟩
      intro y hy
      simp [hx, hy]
    | succ i =>
      obtain ⟨j, hj, hset⟩ := ih h
      by_cases hz : p z = true
      · refine ⟨j + 1, by simpa [hz] using hj, ?_⟩
        intro y hy
        simp [hz, hset y hy]
      · refine ⟨j, by simpa [hz] using hj, ?_⟩
        intro y hy
        simp [hz, hset y hy]

end Filter

variable {I : Interface} {ε α ρ σ υ : Type}

/-- Whose request it is, what a tenant sees of the shared state, and what the log of a request
says about it. -/
structure Server.Tenancy (S : Server I ε α ρ σ) (υ : Type) where
  contract : S.Contract
  tenant : ρ → υ
  view : υ → σ → σ
  Knows : ρ → List (Event I) → σ → Prop
  knows_begin : ∀ q s, Knows q [] s
  knows_act : ∀ q log c s r s', Knows q log s → contract.permits q log c →
    S.effect q log c s r s' → Knows q (log ++ [⟨c, r⟩]) s'
  knows_other : ∀ q log c s r s' q' log', Knows q log s → contract.permits q log c →
    S.effect q log c s r s' → Knows q' log' s → Knows q' log' s'
  knows_change : ∀ q log s s', Knows q log s → S.change s s' → Knows q log s'
  own : ∀ q log c s r s', Knows q log s → contract.permits q log c → S.effect q log c s r s' →
    S.effect q log c (view (tenant q) s) r (view (tenant q) s')
  other : ∀ u q log c s r s', u ≠ tenant q → Knows q log s → contract.permits q log c →
    S.effect q log c s r s' → view u s' = view u s
  change : ∀ u s s', S.change s s' → S.change (view u s) (view u s')

namespace Server.Tenancy

variable {S : Server I ε α ρ σ} (T : S.Tenancy υ)

/-- Every request keeps its contract and knows what its log says. -/
structure Settled (x : Stage I ε α ρ σ) : Prop where
  kept : ∀ task ∈ x.tasks, T.contract.Kept task
  knows : ∀ task ∈ x.tasks, T.Knows task.request task.log x.state

variable {T}

theorem settled_step (x : Stage I ε α ρ σ) (l : StageLabel I ρ) (y : Stage I ε α ρ σ)
    (hx : T.Settled x) (h : S.Step x l y) : T.Settled y := by
  refine ⟨T.contract.kept_step x l y hx.kept h, ?_⟩
  cases h with
  | begin q =>
    intro task hm
    rcases List.mem_append.mp hm with hm | hm
    · exact hx.knows task hm
    · obtain rfl := List.mem_singleton.mp hm
      exact T.knows_begin q _
  | act ht he =>
    intro task hm
    have hmem := List.mem_of_getElem? ht
    have hpermit := (hx.kept _ hmem).1
    rcases mem_set_cases hm with rfl | ⟨j, -, hj⟩
    · exact T.knows_act _ _ _ _ _ _ (hx.knows _ hmem) hpermit he
    · exact T.knows_other _ _ _ _ _ _ _ _ (hx.knows _ hmem) hpermit he
        (hx.knows task (List.mem_of_getElem? hj))
  | crash e ht hl =>
    intro task hm
    rcases mem_set_cases hm with rfl | ⟨j, -, hj⟩
    · have hknows := hx.knows _ (List.mem_of_getElem? ht)
      exact hknows
    · exact hx.knows task (List.mem_of_getElem? hj)
  | change hc =>
    intro task hm
    exact T.knows_change _ _ _ _ (hx.knows task hm) hc

theorem settled_run {s : σ} {trace : List (StageLabel I ρ × Stage I ε α ρ σ)}
    {x : Stage I ε α ρ σ} (h : Run S.Step ⟨s, []⟩ trace x) : T.Settled x :=
  h.invariant ⟨by simp, by simp⟩ settled_step

variable [DecidableEq υ] (T)

def owns (u : υ) (task : Task I ε α ρ) : Bool := T.tenant task.request = u

/-- The requests of a tenant, and what the tenant sees. -/
def part (u : υ) (x : Stage I ε α ρ σ) : Stage I ε α ρ σ where
  state := T.view u x.state
  tasks := x.tasks.filter (T.owns u)

/-- A step in the part of a tenant: that of a request of its own, or a change of the state. -/
def Own (u : υ) : StageLabel I ρ → Prop
  | .begin q => T.tenant q = u
  | _ => True

variable {T}

theorem owns_of_tenant {u : υ} {task : Task I ε α ρ} (h : T.tenant task.request = u) :
    T.owns u task = true := decide_eq_true h

theorem not_owns_of_tenant {u : υ} {task : Task I ε α ρ} (h : T.tenant task.request ≠ u) :
    T.owns u task = false := decide_eq_false h

theorem part_step {x y : Stage I ε α ρ σ} {l : StageLabel I ρ} (hx : T.Settled x)
    (h : S.Step x l y) (u : υ) :
    T.part u y = T.part u x ∨ ∃ l', T.Own u l' ∧ S.Step (T.part u x) l' (T.part u y) := by
  cases h with
  | @begin s tasks q =>
    let task : Task I ε α ρ := ⟨q, [], S.handler q⟩
    by_cases hq : T.tenant q = u
    · right
      have hpart : T.part u ⟨s, tasks ++ [task]⟩ =
          ⟨T.view u s, (T.part u ⟨s, tasks⟩).tasks ++ [task]⟩ := by
        have hown : T.owns u task = true := owns_of_tenant hq
        simp [part, hown]
      refine ⟨.begin q, hq, ?_⟩
      rw [hpart]
      exact .begin q
    · left
      have hnot : T.owns u task = false := not_owns_of_tenant hq
      simpa [part] using hnot
  | @act s s' tasks i q log c k r ht he =>
    let task : Task I ε α ρ := ⟨q, log ++ [⟨c, r⟩], k r⟩
    have hmem := List.mem_of_getElem? ht
    have hknows := hx.knows _ hmem
    have hpermit := (hx.kept _ hmem).1
    by_cases hq : T.tenant q = u
    · right
      obtain ⟨j, hj, hset⟩ := filter_set_of_pos ht (owns_of_tenant hq)
      have hpart : T.part u ⟨s', tasks.set i task⟩ =
          ⟨T.view u s', (T.part u ⟨s, tasks⟩).tasks.set j task⟩ := by
        simp only [part, hset task (owns_of_tenant hq)]
      refine ⟨.act j c r, trivial, ?_⟩
      rw [hpart]
      subst hq
      exact .act hj (T.own q log c s r s' hknows hpermit he)
    · left
      have hview := T.other u q log c s r s' (Ne.symm hq) hknows hpermit he
      have hfilter := filter_set_of_neg (y := task) ht (not_owns_of_tenant hq)
        (not_owns_of_tenant hq)
      simp only [part, hview, task, hfilter]
  | @crash s tasks i task e ht hl =>
    let ended : Task I ε α ρ := { task with rest := .raise e }
    by_cases hq : T.tenant task.request = u
    · right
      obtain ⟨j, hj, hset⟩ := filter_set_of_pos ht (owns_of_tenant hq)
      have hpart : T.part u ⟨s, tasks.set i ended⟩ =
          ⟨T.view u s, (T.part u ⟨s, tasks⟩).tasks.set j ended⟩ := by
        simp only [part, hset ended (owns_of_tenant hq)]
      refine ⟨.crash, trivial, ?_⟩
      rw [hpart]
      exact .crash e hj hl
    · left
      have hfilter := filter_set_of_neg (y := ended) ht (not_owns_of_tenant hq)
        (not_owns_of_tenant hq)
      simp only [part, ended, hfilter]
  | @change s s' tasks hc =>
    right
    exact ⟨.change, trivial, .change (T.change u s s' hc)⟩

/-- The part of a run that belongs to one tenant is a run of this tenant alone. -/
theorem project {s : σ} {trace : List (StageLabel I ρ × Stage I ε α ρ σ)} {x : Stage I ε α ρ σ}
    (h : Run S.Step ⟨s, []⟩ trace x) (u : υ) :
    ∃ trace', Run S.Step ⟨T.view u s, []⟩ trace' (T.part u x) ∧ ∀ e ∈ trace', T.Own u e.1 := by
  induction h with
  | nil => exact ⟨[], .nil, by simp⟩
  | @snoc trace y z l hr hs ih =>
    obtain ⟨trace', hrun, hown⟩ := ih
    rcases part_step (settled_run hr) hs u with heq | ⟨l', hl, hstep⟩
    · rw [heq]
      exact ⟨trace', hrun, hown⟩
    · refine ⟨_, hrun.snoc hstep, ?_⟩
      intro e he
      rcases List.mem_append.mp he with he | he
      · exact hown e he
      · obtain rfl := List.mem_singleton.mp he
        exact hl

end Server.Tenancy

end CloudVM
