import CloudVM.Framework.Pattern
import Mathlib.Algebra.BigOperators.Group.List.Basic
import Mathlib.Computability.Language

/-!
# What an expression takes

The language of a regular expression without assertions, and what the test of an anchored
expression says of a text.
-/

namespace CloudVM.Pattern

open Computability

variable {α : Type} {r s : Pattern α} {l m : Language α}

/-- From any place, the expression takes exactly the words of the language. -/
def Takes (r : Pattern α) (l : Language α) : Prop :=
  ∀ before after y, y ∈ r.ends (before, after) ↔
    ∃ w ∈ l, ∃ rest, after = w ++ rest ∧ y = (w.reverse ++ before, rest)

theorem takes_empty : Takes (empty : Pattern α) 1 := by
  intro before after y
  simp [Language.mem_one]

def single (p : α → Bool) : Language α := {w | ∃ c, p c = true ∧ w = [c]}

theorem mem_single {p : α → Bool} {w : List α} : w ∈ single p ↔ ∃ c, p c = true ∧ w = [c] := Iff.rfl

theorem takes_one (p : α → Bool) : Takes (one p) (single p) := by
  intro before after y
  simp only [mem_single]
  cases after with
  | nil => simp
  | cons c after =>
    by_cases hc : p c = true
    · simp only [ends, hc, if_true, List.mem_singleton]
      constructor
      · intro hy
        exact ⟨[c], ⟨c, hc, rfl⟩, after, rfl, hy⟩
      · rintro ⟨w, ⟨d, -, rfl⟩, rest, heq, hy⟩
        simp only [List.cons_append, List.nil_append, List.cons.injEq] at heq
        rw [hy, heq.1, heq.2]
        rfl
    · have hends : (one p).ends (before, c :: after) = [] := by simp [hc]
      rw [hends]
      constructor
      · intro hy
        simp at hy
      · rintro ⟨w, ⟨d, hd, rfl⟩, rest, heq, -⟩
        simp only [List.cons_append, List.nil_append, List.cons.injEq] at heq
        exact absurd (heq.1 ▸ hd) hc

theorem Takes.seq (hr : Takes r l) (hs : Takes s m) : Takes (seq r s) (l * m) := by
  intro before after y
  simp only [ends, List.mem_flatMap]
  constructor
  · rintro ⟨z, hz, hy⟩
    obtain ⟨u, hu, mid, rfl, rfl⟩ := (hr before after z).mp hz
    obtain ⟨v, hv, rest, rfl, rfl⟩ := (hs _ mid y).mp hy
    exact ⟨u ++ v, Language.mem_mul.mpr ⟨u, hu, v, hv, rfl⟩, rest, by simp, by simp⟩
  · rintro ⟨w, hw, rest, rfl, rfl⟩
    obtain ⟨u, hu, v, hv, rfl⟩ := Language.mem_mul.mp hw
    refine ⟨(u.reverse ++ before, v ++ rest), (hr _ _ _).mpr ⟨u, hu, v ++ rest, by simp, rfl⟩, ?_⟩
    exact (hs _ _ _).mpr ⟨v, hv, rest, rfl, by simp⟩

theorem Takes.alt (hr : Takes r l) (hs : Takes s m) : Takes (alt r s) (l + m) := by
  intro before after y
  simp only [ends, List.mem_append, hr before after y, hs before after y, Language.mem_add]
  constructor
  · rintro (⟨w, hw, h⟩ | ⟨w, hw, h⟩)
    · exact ⟨w, Or.inl hw, h⟩
    · exact ⟨w, Or.inr hw, h⟩
  · rintro ⟨w, hw | hw, h⟩
    · exact Or.inl ⟨w, hw, h⟩
    · exact Or.inr ⟨w, hw, h⟩

theorem Takes.optional (hr : Takes r l) : Takes (optional r) (l + 1) := hr.alt takes_empty

-- Every round takes a word of its own that is not empty.
private theorem mem_rounds (hr : Takes r l) (n : ℕ) (before after : List α) (y : Place α) :
    y ∈ rounds r.ends n (before, after) ↔
      ∃ ws : List (List α), ws.length ≤ n ∧ (∀ w ∈ ws, w ∈ l ∧ w ≠ []) ∧
        ∃ rest, after = ws.flatten ++ rest ∧ y = (ws.flatten.reverse ++ before, rest) := by
  induction n generalizing before after with
  | zero =>
    simp only [rounds, List.mem_singleton, Nat.le_zero, List.length_eq_zero_iff]
    constructor
    · intro hy
      exact ⟨[], rfl, by simp, after, by simp, by simpa using hy⟩
    · rintro ⟨ws, rfl, -, rest, rfl, hy⟩
      simpa using hy
  | succ n ih =>
    simp only [rounds, List.mem_cons, List.mem_flatMap, List.mem_filter, decide_eq_true_eq]
    constructor
    · rintro (rfl | ⟨z, ⟨hz, hshort⟩, hy⟩)
      · exact ⟨[], by simp, by simp, after, by simp, by simp⟩
      · obtain ⟨w, hw, mid, rfl, rfl⟩ := (hr before after z).mp hz
        obtain ⟨ws, hlen, hws, rest, rfl, rfl⟩ := (ih _ mid).mp hy
        have hne : w ≠ [] := by
          rintro rfl
          simp at hshort
        refine ⟨w :: ws, by simpa using hlen, ?_, rest, by simp, by simp⟩
        intro v hv
        rcases List.mem_cons.mp hv with rfl | hv
        · exact ⟨hw, hne⟩
        · exact hws v hv
    · rintro ⟨ws, hlen, hws, rest, rfl, rfl⟩
      cases ws with
      | nil => exact Or.inl (by simp)
      | cons w ws =>
        obtain ⟨hw, hne⟩ := hws w List.mem_cons_self
        right
        refine ⟨(w.reverse ++ before, ws.flatten ++ rest), ⟨?_, ?_⟩, ?_⟩
        · exact (hr _ _ _).mpr ⟨w, hw, ws.flatten ++ rest, by simp, rfl⟩
        · have hpos : 0 < w.length := List.length_pos_of_ne_nil hne
          simp only [List.flatten_cons, List.length_append]
          omega
        · refine (ih _ _).mpr ⟨ws, by simpa using hlen, ?_, rest, rfl, by simp⟩
          intro v hv
          exact hws v (List.mem_cons_of_mem w hv)

theorem Takes.star (hr : Takes r l) : Takes (star r) l∗ := by
  intro before after y
  simp only [ends]
  rw [mem_rounds hr]
  constructor
  · rintro ⟨ws, -, hws, rest, hafter, hy⟩
    exact ⟨ws.flatten, Language.mem_kstar.mpr ⟨ws, rfl, fun w hw => (hws w hw).1⟩, rest, hafter, hy⟩
  · rintro ⟨w, hw, rest, hafter, hy⟩
    obtain ⟨ws, rfl, hws⟩ := Language.mem_kstar_iff_exists_nonempty.mp hw
    refine ⟨ws, ?_, hws, rest, hafter, hy⟩
    have hlen : ws.length ≤ ws.flatten.length := by
      have hmap : (ws.map List.length).length = ws.length := List.length_map _
      rw [List.length_flatten, ← hmap]
      apply List.length_le_sum_of_one_le
      intro n hn
      obtain ⟨v, hv, rfl⟩ := List.mem_map.mp hn
      exact List.length_pos_of_ne_nil (hws v hv).2
    rw [hafter, List.length_append]
    omega

theorem mem_kstar_single {p : α → Bool} {w : List α} (h : ∀ c ∈ w, p c = true) : w ∈ (single p)∗ := by
  refine Language.mem_kstar.mpr ⟨w.map fun c => [c], ?_, ?_⟩
  · induction w with
    | nil => rfl
    | cons c w ih =>
      have htail := ih fun d hd => h d (List.mem_cons_of_mem c hd)
      simpa using htail
  · intro u hu
    obtain ⟨c, hc, rfl⟩ := List.mem_map.mp hu
    exact ⟨c, h c hc, rfl⟩

theorem Takes.plus (hr : Takes r l) : Takes (plus r) (l * l∗) := hr.seq hr.star

section Over

variable {p q : α → Bool}

/-- All characters of the words are in the class. -/
def Over (p : α → Bool) (l : Language α) : Prop := ∀ w ∈ l, ∀ c ∈ w, p c = true

theorem over_one : Over p (1 : Language α) := by
  intro w hw
  rw [(Language.mem_one w).mp hw]
  simp

theorem over_single (h : ∀ c, q c = true → p c = true) : Over p (single q) := by
  rintro w ⟨d, hd, rfl⟩ c hc
  rw [List.mem_singleton.mp hc]
  exact h d hd

theorem Over.mul (hl : Over p l) (hm : Over p m) : Over p (l * m) := by
  intro w hw c hc
  obtain ⟨u, hu, v, hv, rfl⟩ := Language.mem_mul.mp hw
  rcases List.mem_append.mp hc with hc | hc
  · exact hl u hu c hc
  · exact hm v hv c hc

theorem Over.kstar (hl : Over p l) : Over p l∗ := by
  intro w hw c hc
  obtain ⟨ws, rfl, hws⟩ := Language.mem_kstar.mp hw
  obtain ⟨u, hu, hc⟩ := List.mem_flatten.mp hc
  exact hl u (hws u hu) c hc

end Over

section Letters

/-- The characters of a text one after the other, compared by `same`. -/
def letters (same : α → α → Bool) (text : List α) : Pattern α := all (text.map fun c => one (same c))

/-- The words that agree with a text, letter by letter. -/
def spellings (same : α → α → Bool) (text : List α) : Language α :=
  {w | List.Forall₂ (fun c d => same c d = true) text w}

theorem mem_spellings {same : α → α → Bool} {text w : List α} :
    w ∈ spellings same text ↔ List.Forall₂ (fun c d => same c d = true) text w := Iff.rfl

theorem takes_letters (same : α → α → Bool) (text : List α) :
    Takes (letters same text) (spellings same text) := by
  induction text with
  | nil =>
    have hone : spellings same [] = 1 := by
      ext w
      rw [mem_spellings, List.forall₂_nil_left_iff, Language.mem_one]
    rw [hone]
    exact takes_empty
  | cons c text ih =>
    have hmul : spellings same (c :: text) = single (same c) * spellings same text := by
      ext w
      rw [mem_spellings, List.forall₂_cons_left_iff, Language.mem_mul]
      constructor
      · rintro ⟨d, v, hd, hv, rfl⟩
        exact ⟨[d], ⟨d, hd, rfl⟩, v, hv, rfl⟩
      · rintro ⟨u, ⟨d, hd, rfl⟩, v, hv, rfl⟩
        exact ⟨d, v, hd, hv, rfl⟩
    rw [hmul]
    exact (takes_one (same c)).seq ih

theorem mem_spellings_map {β : Type} [DecidableEq β] {f : α → β} {text w : List α} :
    w ∈ spellings (fun c d => f c == f d) text ↔ w.map f = text.map f := by
  rw [mem_spellings]
  simp only [beq_iff_eq]
  rw [← List.forall₂_map_left_iff (R := fun c d => c = f d), ← List.forall₂_map_right_iff,
    List.forall₂_eq_eq_eq]
  exact eq_comm

theorem mem_spellings_eq [DecidableEq α] {text w : List α} :
    w ∈ spellings (fun c d => c == d) text ↔ w = text := by
  rw [mem_spellings]
  simp only [beq_iff_eq]
  rw [List.forall₂_eq_eq_eq]
  exact eq_comm

end Letters

section Anchored

/-- Behind the first place no match can start with an anchor. -/
private theorem found_start (before text : List α) (h : before ≠ []) :
    found (seq start r) before text = false := by
  have hends : ∀ after, (seq start r).ends (before, after) = [] := by
    intro after
    cases before with
    | nil => exact absurd rfl h
    | cons c before => simp
  induction text generalizing before with
  | nil =>
    rw [found, hends]
    rfl
  | cons c text ih =>
    have hnext := ih (c :: before) (by simp) (by intro after; simp)
    rw [found, hends, hnext]
    rfl

private theorem test_start (text : List α) :
    (seq start r).test text = !(r.ends ([], text)).isEmpty := by
  cases text with
  | nil => simp [test, found]
  | cons c text => simp [test, found, found_start [c] text (by simp)]

theorem test_begins (h : Takes r l) (text : List α) :
    (seq start r).test text = true ↔ ∃ w ∈ l, w <+: text := by
  rw [test_start]
  simp only [Bool.not_eq_true', List.isEmpty_eq_false_iff_exists_mem]
  constructor
  · rintro ⟨y, hy⟩
    obtain ⟨w, hw, rest, htext, -⟩ := (h [] text y).mp hy
    exact ⟨w, hw, rest, htext.symm⟩
  · rintro ⟨w, hw, rest, rfl⟩
    exact ⟨_, (h [] _ _).mpr ⟨w, hw, rest, rfl, rfl⟩⟩

/-- `/^…$/`. -/
theorem test_whole (h : Takes r l) (text : List α) :
    (seq start (seq r stop)).test text = true ↔ text ∈ l := by
  rw [test_start]
  simp only [Bool.not_eq_true', List.isEmpty_eq_false_iff_exists_mem, ends, List.mem_flatMap]
  constructor
  · rintro ⟨y, z, hz, hy⟩
    obtain ⟨w, hw, rest, rfl, rfl⟩ := (h [] text z).mp hz
    cases rest with
    | nil => simpa using hw
    | cons c rest => simp at hy
  · intro htext
    have hall : (text.reverse, []) ∈ r.ends ([], text) :=
      (h [] text _).mpr ⟨text, htext, [], by simp, by simp⟩
    exact ⟨(text.reverse, []), _, hall, by simp⟩

private theorem ends_all_concat (rs : List (Pattern α)) (t : Pattern α) (x : Place α) :
    (all (rs ++ [t])).ends x = (seq (all rs) t).ends x := by
  induction rs generalizing x with
  | nil => simp [all]
  | cons r rs ih =>
    change (r.ends x).flatMap (all (rs ++ [t])).ends = ((r.ends x).flatMap (all rs).ends).flatMap t.ends
    rw [List.flatMap_assoc, funext ih]
    rfl

theorem test_all_whole {rs : List (Pattern α)} (h : Takes (all rs) l) (text : List α) :
    (all (start :: (rs ++ [stop]))).test text = true ↔ text ∈ l := by
  have htest : (all (start :: (rs ++ [stop]))).test text = (seq start (seq (all rs) stop)).test text := by
    rw [test_start, ← ends_all_concat]
    exact test_start text
  rw [htest, test_whole h]

end Anchored

end CloudVM.Pattern
