import CloudVM.Framework.Requests

/-!
# Work that is left to the next call

A call may leave work on a key behind that the same request takes up with its next call. Unless a
call fails or a request ends between the two, the work that is left on a key is always about to be
taken up, and none is left when no request is under way.
-/

namespace CloudVM

section Prompt

variable {I : Interface} {ε α β κ : Type} (opens : (c : I.Call) → I.Answer c → Option κ)
  (closes : I.Call → Option κ)

namespace Process

def takesUp : Process I ε α → Option κ
  | .ret _ | .raise _ => none
  | .call c _ => closes c

/-- Work that is left behind is taken up by the next call. -/
def Prompt : Process I ε α → Prop
  | .ret _ | .raise _ => True
  | .call c k => ∀ r, (k r).Prompt ∧ ∀ key, opens c r = some key → (k r).takesUp closes = some key

variable {opens closes}

theorem takesUp_bind {p : Process I ε α} {key : κ} (h : p.takesUp closes = some key)
    (f : α → Process I ε β) : (p >>= f).takesUp closes = some key := by
  cases p with
  | ret a => simp [takesUp] at h
  | raise e => simp [takesUp] at h
  | call c k => exact h

theorem takesUp_tryCatch {p : Process I ε α} {key : κ} (h : p.takesUp closes = some key)
    (f : ε → Process I ε α) : (tryCatch p f).takesUp closes = some key := by
  cases p with
  | ret a => simp [takesUp] at h
  | raise e => simp [takesUp] at h
  | call c k => exact h

theorem Prompt.bind {p : Process I ε α} {f : α → Process I ε β} (hp : p.Prompt opens closes)
    (hf : ∀ a, (f a).Prompt opens closes) : (p >>= f).Prompt opens closes := by
  induction p with
  | ret a => exact hf a
  | raise e => trivial
  | call c k ih =>
    intro r
    exact ⟨ih r (hp r).1, fun key hkey => takesUp_bind ((hp r).2 key hkey) f⟩

theorem Prompt.tryCatch {p : Process I ε α} {f : ε → Process I ε α} (hp : p.Prompt opens closes)
    (hf : ∀ e, (f e).Prompt opens closes) : (tryCatch p f).Prompt opens closes := by
  induction p with
  | ret a => trivial
  | raise e => exact hf e
  | call c k ih =>
    intro r
    exact ⟨ih r (hp r).1, fun key hkey => takesUp_tryCatch ((hp r).2 key hkey) f⟩

theorem Only.prompt {p : Process I ε α} (h : p.Only fun c => ∀ r, opens c r = none) :
    p.Prompt opens closes := by
  induction p with
  | ret a => trivial
  | raise e => trivial
  | call c k ih =>
    intro r
    refine ⟨ih r (h.2 r), fun key hkey => ?_⟩
    rw [h.1 r] at hkey
    cases hkey

theorem takesUp_lift {J : Interface} {f : I.Call → J.Call}
    {g : (c : I.Call) → J.Answer (f c) → I.Answer c} {closes' : J.Call → Option κ}
    (p : Process I ε α) (hclose : ∀ c, closes' (f c) = closes c) :
    (p.lift f g).takesUp closes' = p.takesUp closes := by
  cases p with
  | ret a => rfl
  | raise e => rfl
  | call c k => exact hclose c

theorem Prompt.lift {J : Interface} {f : I.Call → J.Call}
    {g : (c : I.Call) → J.Answer (f c) → I.Answer c} {opens' : (c : J.Call) → J.Answer c → Option κ}
    {closes' : J.Call → Option κ} {p : Process I ε α} (h : p.Prompt opens closes)
    (hopen : ∀ c r, opens' (f c) r = opens c (g c r)) (hclose : ∀ c, closes' (f c) = closes c) :
    (p.lift f g).Prompt opens' closes' := by
  induction p with
  | ret a => trivial
  | raise e => trivial
  | call c k ih =>
    intro r
    refine ⟨ih (g c r) (h (g c r)).1, fun key hkey => ?_⟩
    rw [hopen] at hkey
    rw [takesUp_lift _ hclose]
    exact (h (g c r)).2 key hkey

end Process

end Prompt

section FollowUps

variable {I : Interface} {ε α ρ σ : Type}

/-- What the calls of a server leave behind and take up. -/
structure Server.FollowUps (S : Server I ε α ρ σ) (κ : Type) where
  left : σ → κ → Prop
  opens : (c : I.Call) → I.Answer c → Option κ
  closes : I.Call → Option κ
  fails : (c : I.Call) → I.Answer c → Prop
  prompt : ∀ q, (S.handler q).Prompt opens closes
  sound : ∀ q log c s r s' key, S.effect q log c s r s' → left s' key →
    (left s key ∧ closes c ≠ some key) ∨ opens c r = some key ∨ fails c r
  change : ∀ s s' key, S.change s s' → left s' key → left s key

namespace Server.FollowUps

variable {S : Server I ε α ρ σ} {κ : Type} (F : S.FollowUps κ)

def Awaited (x : Stage I ε α ρ σ) (key : κ) : Prop :=
  ∃ task ∈ x.tasks, task.rest.takesUp F.closes = some key

def Attended (x : Stage I ε α ρ σ) : Prop := ∀ key, F.left x.state key → F.Awaited x key

/-- A call that fails or a request that ends leaves work behind that nobody takes up next. -/
def Abandons (_ : Stage I ε α ρ σ) (l : StageLabel I ρ) (y : Stage I ε α ρ σ) : Prop :=
  (∃ key, F.left y.state key ∧ ¬ F.Awaited y key) ∧
    (l = .crash ∨ ∃ i c r, l = .act i c r ∧ F.fails c r)

def Orderly (x : Stage I ε α ρ σ) : Prop :=
  (∀ task ∈ x.tasks, task.rest.Prompt F.opens F.closes) ∧ F.Attended x

theorem prompt_step (x : Stage I ε α ρ σ) (l : StageLabel I ρ) (y : Stage I ε α ρ σ)
    (hx : ∀ task ∈ x.tasks, task.rest.Prompt F.opens F.closes) (h : S.Step x l y) :
    ∀ task ∈ y.tasks, task.rest.Prompt F.opens F.closes := by
  cases h with
  | begin q =>
    intro task hm
    rcases List.mem_append.mp hm with hm | hm
    · exact hx task hm
    · obtain rfl := List.mem_singleton.mp hm
      exact F.prompt q
  | act ht he =>
    intro task hm
    rcases mem_set_cases hm with rfl | ⟨j, -, hj⟩
    · exact (hx _ (List.mem_of_getElem? ht) _).1
    · exact hx task (List.mem_of_getElem? hj)
  | crash e ht hl =>
    intro task hm
    rcases mem_set_cases hm with rfl | ⟨j, -, hj⟩
    · trivial
    · exact hx task (List.mem_of_getElem? hj)
  | change hc => exact hx

private theorem awaited_set {x : Stage I ε α ρ σ} {key : κ} {i : ℕ} {task new : Task I ε α ρ} {s : σ}
    (hi : x.tasks[i]? = some task) (hne : task.rest.takesUp F.closes ≠ some key)
    (h : F.Awaited x key) : F.Awaited ⟨s, x.tasks.set i new⟩ key := by
  obtain ⟨other, hm, hother⟩ := h
  obtain ⟨j, hj⟩ := List.mem_iff_getElem?.mp hm
  have hij : i ≠ j := by
    rintro rfl
    rw [hi] at hj
    cases hj
    exact hne hother
  refine ⟨other, ?_, hother⟩
  apply List.mem_of_getElem? (i := j)
  rw [List.getElem?_set_ne hij]
  exact hj

private theorem orderly_step (x : Stage I ε α ρ σ) (l : StageLabel I ρ) (y : Stage I ε α ρ σ)
    (hx : F.Orderly x) (h : S.Step x l y) : F.Orderly y ↔ ¬ F.Abandons x l y := by
  constructor
  · rintro ⟨-, hy⟩ ⟨⟨key, hleft, hawaited⟩, -⟩
    exact hawaited (hy key hleft)
  intro hno
  refine ⟨F.prompt_step x l y hx.1 h, ?_⟩
  intro key hleft
  by_contra hawaited
  -- only a failure or the end of a request leaves the key to nobody
  have hquiet : ¬ (l = .crash ∨ ∃ i c r, l = .act i c r ∧ F.fails c r) :=
    fun hl => hno ⟨⟨key, hleft, hawaited⟩, hl⟩
  cases h with
  | begin q =>
    obtain ⟨task, hm, htask⟩ := hx.2 key hleft
    exact hawaited ⟨task, List.mem_append_left _ hm, htask⟩
  | @act s s' tasks i q log c k r ht he =>
    rcases F.sound _ _ _ _ _ _ key he hleft with ⟨hbefore, hclose⟩ | hopen | hfail
    · have hother : (Process.call c k : Process I ε α).takesUp F.closes ≠ some key := hclose
      exact hawaited (F.awaited_set ht hother (hx.2 key hbefore))
    · have hnext := (hx.1 _ (List.mem_of_getElem? ht) r).2 key hopen
      have hlt : i < tasks.length := (List.getElem?_eq_some_iff.mp ht).1
      exact hawaited ⟨⟨q, log ++ [⟨c, r⟩], k r⟩, List.mem_set hlt _, hnext⟩
    · exact hquiet (Or.inr ⟨i, c, r, rfl, hfail⟩)
  | crash e ht hl => exact hquiet (Or.inl rfl)
  | change hc =>
    obtain ⟨task, hm, htask⟩ := hx.2 key (F.change _ _ key hc hleft)
    exact hawaited ⟨task, hm, htask⟩

/-- Along a run all work that is left is about to be taken up exactly if no step abandons any. -/
theorem orderly_iff {x y : Stage I ε α ρ σ} {trace : List (StageLabel I ρ × Stage I ε α ρ σ)}
    (h : Run S.Step x trace y) (hx : F.Orderly x) :
    (∀ e ∈ trace, F.Orderly e.2) ↔ ¬ Sometime F.Abandons x trace :=
  h.forall_iff_not_sometime F.orderly_step hx

theorem Attended.settled {F : S.FollowUps κ} {x : Stage I ε α ρ σ} (hx : F.Attended x)
    (hrest : ∀ task ∈ x.tasks, ¬ task.Live) (key : κ) : ¬ F.left x.state key := by
  intro hleft
  obtain ⟨task, hm, htask⟩ := hx key hleft
  apply hrest task hm
  cases hp : task.rest with
  | ret a => simp [hp, Process.takesUp] at htask
  | raise e => simp [hp, Process.takesUp] at htask
  | call c k => exact ⟨c, k, hp⟩

end Server.FollowUps

end FollowUps

end CloudVM
