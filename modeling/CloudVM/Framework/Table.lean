import Mathlib.Algebra.Order.BigOperators.Group.List
import Mathlib.Data.List.Nodup
import Mathlib.Data.List.Perm.Basic
import Mathlib.Tactic.Common

/-!
# Keyed tables

A database table with a primary key: a list of rows, no two of which share their key.
Updates keep every key, inserts need a free key, deletes take rows away; hence a table with
two rows of one key cannot be built.
-/

namespace CloudVM

theorem sum_add_le {τ α : Type} [AddCommMonoid α] [PartialOrder α] [IsOrderedAddMonoid α]
    {f g : τ → α} {d : α} {xs : List τ} (hle : ∀ x ∈ xs, f x ≤ g x)
    (hone : ∃ x ∈ xs, f x + d ≤ g x) : (xs.map f).sum + d ≤ (xs.map g).sum := by
  induction xs with
  | nil => simp at hone
  | cons x xs ih =>
    have htail : ∀ y ∈ xs, f y ≤ g y := fun y hy => hle y (List.mem_cons_of_mem x hy)
    have hhead := hle x List.mem_cons_self
    rw [List.map_cons, List.map_cons, List.sum_cons, List.sum_cons]
    obtain ⟨y, hy, hd⟩ := hone
    rcases List.mem_cons.mp hy with rfl | hy
    · have hsum : (xs.map f).sum ≤ (xs.map g).sum := List.sum_le_sum htail
      calc f y + (xs.map f).sum + d
        _ = f y + d + (xs.map f).sum := add_right_comm _ _ _
        _ ≤ g y + (xs.map g).sum := add_le_add hd hsum
    · have hrest := ih htail ⟨y, hy, hd⟩
      calc f x + (xs.map f).sum + d
        _ = f x + ((xs.map f).sum + d) := add_assoc _ _ _
        _ ≤ g x + (xs.map g).sum := add_le_add hhead hrest

/-- Rows of type `ρ` with distinct keys, in insertion order. -/
structure Table {κ ρ : Type} (key : ρ → κ) where
  rows : List ρ
  nodup : (rows.map key).Nodup

namespace Table

variable {κ ρ : Type} {key : ρ → κ}

theorem ext_rows {a b : Table key} (h : a.rows = b.rows) : a = b := by
  cases a
  cases b
  cases h
  rfl

theorem nodup_map_concat {rows : List ρ} {r : ρ} (h : (rows.map key).Nodup)
    (hr : key r ∉ rows.map key) : ((rows ++ [r]).map key).Nodup := by
  rw [List.map_append, List.map_singleton]
  apply List.nodup_append.mpr
  refine ⟨h, List.nodup_singleton _, ?_⟩
  intro a ha b hb hab
  rw [List.mem_singleton] at hb
  exact hr (hb ▸ hab ▸ ha)

def empty : Table key := ⟨[], List.nodup_nil⟩

/-- The row with a given key (`findUnique`). -/
def find? [DecidableEq κ] (t : Table key) (k : κ) : Option ρ :=
  t.rows.find? fun r => key r = k

/-- Change every row that satisfies `p` (`updateMany`). -/
def modify (t : Table key) (p : ρ → Bool) (f : ρ → ρ)
    (hf : ∀ r, key (f r) = key r := by intro; rfl) : Table key where
  rows := t.rows.map fun r => if p r then f r else r
  nodup := by
    have he : (t.rows.map fun r => if p r then f r else r).map key = t.rows.map key := by
      rw [List.map_map]
      apply List.map_congr_left
      intro r _
      by_cases hp : p r <;> simp [hp, hf]
    rw [he]
    exact t.nodup

/-- Append a row whose key is free (`create`). -/
def insert (t : Table key) (r : ρ) (h : key r ∉ t.rows.map key) : Table key where
  rows := t.rows ++ [r]
  nodup := nodup_map_concat t.nodup h

/-- Put a row in the place of the one with its key, or append it (`upsert`). -/
def upsert [DecidableEq κ] (t : Table key) (r : ρ) : Table key :=
  if h : key r ∈ t.rows.map key then
    t.modify (fun _ => true) (fun x => if key x = key r then r else x) (by intro x; split <;> simp_all)
  else t.insert r h

/-- Take away every row that satisfies `p` (`deleteMany`). -/
def erase (t : Table key) (p : ρ → Bool) : Table key where
  rows := t.rows.filter fun r => !p r
  nodup := t.nodup.sublist (List.filter_sublist.map key)

@[simp] theorem rows_empty : (empty : Table key).rows = [] := rfl

@[simp] theorem rows_insert (t : Table key) (r : ρ) (h : key r ∉ t.rows.map key) :
    (t.insert r h).rows = t.rows ++ [r] := rfl

@[simp] theorem rows_modify (t : Table key) (p : ρ → Bool) (f : ρ → ρ)
    (hf : ∀ r, key (f r) = key r) :
    (t.modify p f hf).rows = t.rows.map fun r => if p r then f r else r := rfl

@[simp] theorem mem_erase (t : Table key) (p : ρ → Bool) (r : ρ) :
    r ∈ (t.erase p).rows ↔ r ∈ t.rows ∧ p r = false := by
  simp [erase]

theorem mem_modify (t : Table key) (p : ρ → Bool) (f : ρ → ρ)
    (hf : ∀ r, key (f r) = key r) (x : ρ) :
    x ∈ (t.modify p f hf).rows ↔ ∃ r ∈ t.rows, (if p r then f r else r) = x := by
  simp

theorem eq_of_key_eq (t : Table key) {r r' : ρ} (hr : r ∈ t.rows) (hr' : r' ∈ t.rows)
    (hk : key r = key r') : r = r' := List.inj_on_of_nodup_map t.nodup hr hr' hk

variable [DecidableEq κ]

theorem find?_eq_some (t : Table key) {k : κ} {r : ρ} :
    t.find? k = some r ↔ r ∈ t.rows ∧ key r = k := by
  constructor
  · intro h
    have hk := List.find?_some h
    exact ⟨List.mem_of_find?_eq_some h, by simpa using hk⟩
  · rintro ⟨hm, hk⟩
    cases hf : t.find? k with
    | none =>
      have hn := List.find?_eq_none.mp hf r hm
      simp [hk] at hn
    | some r' =>
      have hr' := List.mem_of_find?_eq_some hf
      have hk' : key r' = k := by simpa using List.find?_some hf
      rw [t.eq_of_key_eq hm hr' (hk.trans hk'.symm)]

theorem find?_eq_none (t : Table key) {k : κ} :
    t.find? k = none ↔ ∀ r ∈ t.rows, key r ≠ k := by
  simp [find?, List.find?_eq_none]

theorem key_free_iff (t : Table key) (r : ρ) :
    key r ∉ t.rows.map key ↔ t.find? (key r) = none := by
  simp [find?_eq_none]

/-- Lookup after an update: the row under the key, updated if it is hit. -/
theorem find?_modify (t : Table key) (p : ρ → Bool) (f : ρ → ρ)
    (hf : ∀ r, key (f r) = key r) (k : κ) :
    (t.modify p f hf).find? k = (t.find? k).map fun r => if p r then f r else r := by
  cases h : t.find? k with
  | none =>
    rw [Option.map_none, find?_eq_none]
    intro x hx
    obtain ⟨r, hr, rfl⟩ := (mem_modify _ _ _ _ _).mp hx
    have hk := t.find?_eq_none.mp h r hr
    by_cases hp : p r <;> simpa [hp, hf] using hk
  | some r =>
    obtain ⟨hr, hk⟩ := t.find?_eq_some.mp h
    rw [Option.map_some, find?_eq_some]
    refine ⟨(mem_modify _ _ _ _ _).mpr ⟨r, hr, rfl⟩, ?_⟩
    by_cases hp : p r <;> simp [hp, hf, hk]

theorem find?_insert (t : Table key) (r : ρ) (h : key r ∉ t.rows.map key) (k : κ) :
    (t.insert r h).find? k = if key r = k then some r else t.find? k := by
  by_cases hk : key r = k
  · rw [if_pos hk, find?_eq_some]
    exact ⟨by simp, hk⟩
  · rw [if_neg hk]
    simp [find?, List.find?_append, hk]

theorem mem_upsert (t : Table key) {r x : ρ} (h : x ∈ (t.upsert r).rows) :
    x = r ∨ (x ∈ t.rows ∧ key x ≠ key r) := by
  unfold upsert at h
  split at h
  · obtain ⟨y, hy, rfl⟩ := (mem_modify _ _ _ _ _).mp h
    by_cases hk : key y = key r
    · simp [hk]
    · simp [hk, hy]
  · rename_i hfree
    rcases List.mem_append.mp h with hx | hx
    · right
      refine ⟨hx, ?_⟩
      intro hk
      apply hfree
      rw [← hk]
      exact List.mem_map_of_mem hx
    · exact .inl (List.mem_singleton.mp hx)

theorem find?_upsert (t : Table key) (r : ρ) (k : κ) :
    (t.upsert r).find? k = if key r = k then some r else t.find? k := by
  unfold upsert
  split
  · rename_i hmem
    rw [find?_modify]
    obtain ⟨y, hy, hyr⟩ := List.mem_map.mp hmem
    by_cases hk : key r = k
    · have hfind : t.find? k = some y := t.find?_eq_some.mpr ⟨hy, hyr.trans hk⟩
      simp [hfind, hk, hyr]
    · rw [if_neg hk]
      cases hfind : t.find? k with
      | none => rfl
      | some x =>
        have hx : key x ≠ key r := fun h => hk (h ▸ (t.find?_eq_some.mp hfind).2)
        simp [hx]
  · exact find?_insert _ _ _ _

theorem upsert_self {t : Table key} {r : ρ} (h : t.find? (key r) = some r) : t.upsert r = t := by
  have hmem : r ∈ t.rows := (t.find?_eq_some.mp h).1
  have hkey : key r ∈ t.rows.map key := List.mem_map_of_mem hmem
  apply ext_rows
  rw [upsert, dif_pos hkey, rows_modify]
  conv_rhs => rw [← List.map_id t.rows]
  apply List.map_congr_left
  intro x hx
  by_cases hk : key x = key r
  · simp [t.eq_of_key_eq hx hmem hk]
  · simp [hk]

end Table

end CloudVM
