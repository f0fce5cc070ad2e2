import Mathlib.Data.List.SplitBy
import Mathlib.Tactic.Common

/-!
# Pieces of a text

What `String.prototype.split` makes of a text: the pieces between separators, and the separators
themselves where the pattern captures them. The pieces that are not empty are the runs of
separators and of other characters, in turn.
-/

namespace CloudVM.Pieces

variable {α : Type}

section Cut

variable [BEq α]

/-- What stands before the first separator, and what stands behind it. -/
def cut (sep : List α) : List α → Option (List α × List α)
  | [] => none
  | c :: cs =>
    if sep.isPrefixOf (c :: cs) then some ([], (c :: cs).drop sep.length)
    else (cut sep cs).map fun parts => (c :: parts.1, parts.2)

/-- `split(sep)[1]`. -/
def second (sep text : List α) : Option (List α) :=
  (cut sep text).map fun parts => ((cut sep parts.2).map Prod.fst).getD parts.2

/-- `s.slice(0, n)`, in UTF-16 code units. Half a character is written as U+FFFD. -/
def sliceTo : ℕ → List Char → List Char
  | 0, _ => []
  | _, [] => []
  | n + 1, c :: cs =>
    if c.toNat < 0x10000 then c :: sliceTo n cs
    else match n with
      | 0 => [Char.ofNat 0xfffd]
      | n + 1 => c :: sliceTo n cs

theorem sliceTo_eq_take {cs : List Char} (h : ∀ c ∈ cs, c.toNat < 0x10000) (n : ℕ) :
    sliceTo n cs = cs.take n := by
  induction cs generalizing n with
  | nil => cases n <;> rfl
  | cons c cs ih =>
    cases n with
    | zero => rfl
    | succ n =>
      have hc : c.toNat < 0x10000 := h c List.mem_cons_self
      have hcs : ∀ d ∈ cs, d.toNat < 0x10000 := fun d hd => h d (List.mem_cons_of_mem _ hd)
      rw [sliceTo.eq_def]
      simp only [hc, if_true, ih hcs, List.take_succ_cons]

end Cut

section Runs

variable (p : α → Bool)

/-- `split` at runs of characters of a class, each run captured. -/
def splitRuns : List α → List (List α)
  | [] => [[]]
  | c :: cs =>
    match splitRuns cs with
    | [] => [[c]]
    | piece :: rest =>
      if p c then
        match piece, rest with
        | [], run :: rest => [] :: (c :: run) :: rest
        | _, _ => [] :: [c] :: piece :: rest
      else (c :: piece) :: rest

def filled (piece : List α) : Bool := !piece.isEmpty

/-- The pieces that are not empty: `filter(Boolean)`. -/
def chunks (text : List α) : List (List α) := (splitRuns p text).filter filled

variable {p}

/-- Texts without separators and runs of them in turn; only the first and the last text may be
empty. -/
inductive Alternates (p : α → Bool) : List (List α) → Prop
  | last {piece : List α} (hpiece : ∀ c ∈ piece, p c = false) : Alternates p [piece]
  | turn {piece run next : List α} {rest : List (List α)} (hpiece : ∀ c ∈ piece, p c = false)
      (hrun : ∀ c ∈ run, p c = true) (hne : run ≠ []) (hnext : next = [] → rest = [])
      (h : Alternates p (next :: rest)) : Alternates p (piece :: run :: next :: rest)

private theorem Alternates.opens {c : α} {next : List α} {rest : List (List α)} (hc : p c = true)
    (hnext : next = [] → rest = []) (h : Alternates p (next :: rest)) :
    Alternates p ([] :: [c] :: next :: rest) := by
  have hone : ∀ d ∈ [c], p d = true := by simpa using hc
  exact .turn (by simp) hone (by simp) hnext h

private theorem Alternates.grows {c : α} {piece : List α} {rest : List (List α)}
    (hc : p c = false) (h : Alternates p (piece :: rest)) : Alternates p ((c :: piece) :: rest) := by
  cases h with
  | last hpiece => exact .last (List.forall_mem_cons.mpr ⟨hc, hpiece⟩)
  | turn hpiece hrun hne hnext h =>
    exact .turn (List.forall_mem_cons.mpr ⟨hc, hpiece⟩) hrun hne hnext h

theorem alternates_splitRuns (text : List α) : Alternates p (splitRuns p text) := by
  induction text with
  | nil => exact .last (by simp)
  | cons c cs ih =>
    rw [splitRuns]
    generalize splitRuns p cs = pieces at ih ⊢
    cases pieces with
    | nil => cases ih
    | cons piece rest =>
      by_cases hc : p c = true
      · simp only [hc, if_true]
        cases piece with
        | cons d ds => exact ih.opens hc (by simp)
        | nil =>
          cases ih with
          | last hpiece => exact (Alternates.last hpiece).opens hc (by simp)
          | turn hpiece hrun hne hnext h =>
            exact .turn hpiece (List.forall_mem_cons.mpr ⟨hc, hrun⟩) (by simp) hnext h
      · simp only [hc]
        exact ih.grows (by simpa using hc)

theorem flatten_splitRuns (text : List α) : (splitRuns p text).flatten = text := by
  induction text with
  | nil => rfl
  | cons c cs ih =>
    rw [splitRuns]
    generalize splitRuns p cs = pieces at ih ⊢
    cases pieces with
    | nil => simpa using ih
    | cons piece rest =>
      by_cases hc : p c = true
      · cases piece with
        | nil =>
          cases rest with
          | nil => simpa [hc] using ih
          | cons run rest => simpa [hc] using ih
        | cons d ds => simpa [hc] using ih
      · simpa [hc] using ih

@[simp] theorem flatten_chunks (text : List α) : (chunks p text).flatten = text := by
  change ((splitRuns p text).filter fun piece => !piece.isEmpty).flatten = text
  rw [List.flatten_filter_not_isEmpty, flatten_splitRuns]

theorem nil_notMem_chunks (text : List α) : [] ∉ chunks p text := by simp [chunks, filled]

def Even (p : α → Bool) (piece : List α) : Prop := ∀ c ∈ piece, ∀ d ∈ piece, p c = p d

private theorem even_of_all {piece : List α} {b : Bool} (h : ∀ c ∈ piece, p c = b) :
    Even p piece := by
  intro c hc d hd
  rw [h c hc, h d hd]

theorem Alternates.even {pieces : List (List α)} (h : Alternates p pieces) :
    ∀ piece ∈ pieces, Even p piece := by
  induction h with
  | last hpiece => simpa using even_of_all hpiece
  | turn hpiece hrun hne hnext h ih =>
    intro piece hm
    rcases List.mem_cons.mp hm with rfl | hm
    · exact even_of_all hpiece
    · rcases List.mem_cons.mp hm with rfl | hm
      · exact even_of_all hrun
      · exact ih piece hm

/-- The last character of a piece and the first of the next one are of different kinds. -/
def Differ (p : α → Bool) (a b : List α) : Prop :=
  ∃ ha hb, (p (a.getLast ha) == p (b.head hb)) = false

private theorem differ_of_all {a b : List α} {k : Bool} (ha : a ≠ []) (hb : b ≠ [])
    (hka : ∀ c ∈ a, p c = k) (hkb : ∀ c ∈ b, p c = !k) : Differ p a b := by
  refine ⟨ha, hb, ?_⟩
  rw [hka _ (List.getLast_mem ha), hkb _ (List.head_mem hb)]
  cases k <;> rfl

theorem Alternates.differ {pieces : List (List α)} (h : Alternates p pieces) :
    (pieces.filter filled).IsChain (Differ p) := by
  induction h with
  | @last piece hpiece => cases piece <;> simp [filled]
  | @turn piece run next rest hpiece hrun hne hnext h ih =>
    have hfilled : filled run = true := by simpa [filled] using hne
    -- what is kept of the rest starts with the next text, or is nothing
    have hrest : ((run :: next :: rest).filter filled).IsChain (Differ p) := by
      rw [List.filter_cons_of_pos hfilled]
      cases next with
      | nil =>
        rw [hnext rfl]
        simp [filled]
      | cons d ds =>
        have hpieces : ∀ c ∈ d :: ds, p c = !true := by
          cases h with
          | last hnextPiece => exact hnextPiece
          | turn hnextPiece => exact hnextPiece
        rw [List.filter_cons_of_pos (by simp [filled])] at ih ⊢
        exact List.isChain_cons_cons.mpr ⟨differ_of_all hne (by simp) hrun hpieces, ih⟩
    cases piece with
    | nil => simpa [filled] using hrest
    | cons d ds =>
      rw [List.filter_cons_of_pos (by simp [filled])]
      rw [List.filter_cons_of_pos hfilled] at hrest ⊢
      exact List.isChain_cons_cons.mpr ⟨differ_of_all (by simp) hne hpiece hrun, hrest⟩

/-- The pieces that are kept are the runs of characters of one kind. -/
theorem chunks_eq_splitBy (text : List α) :
    chunks p text = text.splitBy fun c d => p c == p d := by
  symm
  have halt := alternates_splitRuns (p := p) text
  apply List.splitBy_eq_iff.mpr
  refine ⟨(flatten_chunks text).symm, nil_notMem_chunks text, ?_, halt.differ⟩
  intro piece hm
  have heven := halt.even piece (List.mem_filter.mp hm).1
  apply List.Pairwise.isChain
  apply List.pairwise_iff_forall_sublist.mpr
  intro c d hsub
  have hc : c ∈ piece := hsub.subset (by simp)
  have hd : d ∈ piece := hsub.subset (by simp)
  simpa using heven c hc d hd

end Runs

end CloudVM.Pieces
