import Mathlib.Logic.Basic
import Mathlib.Tactic.Common

/-!
# Entries with a time to live

A store of values under keys in which an entry may carry the time at which it expires. An entry
whose time has come is there no more, whether or not it has been cleared away.
-/

namespace CloudVM

structure Cache (κ ν : Type) where
  entries : κ → Option (ν × Option ℕ)
  clock : ℕ

namespace Cache

variable {κ ν : Type}

section Entries

variable (s : Cache κ ν)

def live (key : κ) : Option ν :=
  match s.entries key with
  | none => none
  | some (v, none) => some v
  | some (v, some expiresAt) => if s.clock < expiresAt then some v else none

def Lasting (key : κ) : Prop := ∃ v, s.entries key = some (v, none)

variable {s}

theorem Lasting.live {key : κ} (h : s.Lasting key) : s.live key ≠ none := by
  obtain ⟨v, hv⟩ := h
  simp [Cache.live, hv]

theorem entry_of_live {key : κ} {v : ν} (h : s.live key = some v) :
    ∃ deadline, s.entries key = some (v, deadline) := by
  unfold live at h
  cases hentry : s.entries key with
  | none => simp [hentry] at h
  | some entry =>
    obtain ⟨w, deadline⟩ := entry
    cases deadline with
    | none =>
      simp only [hentry, Option.some.injEq] at h
      exact ⟨none, by rw [h]⟩
    | some d =>
      simp only [hentry] at h
      split at h
      · cases h
        exact ⟨some d, rfl⟩
      · cases h

theorem live_eq_none {key : κ} {v : ν} {expiresAt : ℕ} (h : s.entries key = some (v, some expiresAt))
    (hclock : expiresAt ≤ s.clock) : s.live key = none := by
  simp only [live, h]
  rw [if_neg (by omega)]

end Entries

section Commands

variable [DecidableEq κ] (s : Cache κ ν)

def write (key : κ) (entry : Option (ν × Option ℕ)) : Cache κ ν :=
  { s with entries := fun k => if k = key then entry else s.entries k }

def del (keys : List κ) : Cache κ ν :=
  { s with entries := fun k => if k ∈ keys then none else s.entries k }

/-- A new value; an entry that is still there keeps its time. -/
def update (key : κ) (f : Option ν → ν) : Cache κ ν :=
  s.write key (some (f (s.live key), (s.live key).bind fun _ => (s.entries key).bind Prod.snd))

def expire (key : κ) (ttl : ℕ) : Cache κ ν :=
  s.write key ((s.live key).map fun v => (v, some (s.clock + ttl)))

/-- A command that works leads to `t`; one that fails may have done so. -/
def Confirms {ε β : Type} (a : β) (t : Cache κ ν) (r : Except ε β) (s' : Cache κ ν) : Prop :=
  (r = .ok a ∧ s' = t) ∨ ((∃ e, r = .error e) ∧ (s' = s ∨ s' = t))

variable {s}

theorem lasting_write {key k : κ} {entry : Option (ν × Option ℕ)} (h : (s.write key entry).Lasting k) :
    (k = key ∧ ∃ v, entry = some (v, none)) ∨ (k ≠ key ∧ s.Lasting k) := by
  obtain ⟨v, hv⟩ := h
  simp only [write] at hv
  by_cases hk : k = key
  · rw [if_pos hk] at hv
    exact Or.inl ⟨hk, v, hv⟩
  · rw [if_neg hk] at hv
    exact Or.inr ⟨hk, v, hv⟩

theorem lasting_put {key k : κ} {v : ν} {ttl : ℕ}
    (h : (s.write key (some (v, some ttl))).Lasting k) : s.Lasting k := by
  rcases lasting_write h with ⟨-, w, hw⟩ | ⟨-, hk⟩
  · simp at hw
  · exact hk

theorem lasting_del {keys : List κ} {k : κ} (h : (s.del keys).Lasting k) : s.Lasting k := by
  obtain ⟨v, hv⟩ := h
  simp only [del] at hv
  split at hv
  · cases hv
  · exact ⟨v, hv⟩

theorem lasting_expire {key k : κ} {ttl : ℕ} (h : (s.expire key ttl).Lasting k) :
    k ≠ key ∧ s.Lasting k := by
  rcases lasting_write h with ⟨-, v, hv⟩ | h
  · obtain ⟨entry, -, he⟩ := Option.map_eq_some_iff.mp hv
    simp at he
  · exact h

/-- An update makes an entry that never expires only where there was none or such a one. -/
theorem lasting_update {key k : κ} {f : Option ν → ν} (h : (s.update key f).Lasting k) :
    s.Lasting k ∨ (k = key ∧ s.live key = none) := by
  rcases lasting_write h with ⟨rfl, v, hv⟩ | ⟨-, h⟩
  · cases hlive : s.live k with
    | none => exact Or.inr ⟨rfl, rfl⟩
    | some w =>
      left
      simp only [hlive, Option.bind_some, Option.some.injEq, Prod.mk.injEq] at hv
      cases hentry : s.entries k with
      | none => simp [Cache.live, hentry] at hlive
      | some entry =>
        obtain ⟨x, deadline⟩ := entry
        simp only [hentry, Option.bind_some] at hv
        exact ⟨x, by rw [hentry, hv.2]⟩
  · exact Or.inl h

end Commands

end Cache

end CloudVM
