import CloudVM.Assistant.Actions
import Mathlib.Data.List.Infix

/-!
# The VM that is proposed

A message names a VM by its id, in any letter case, or by its whole name. The service takes the
first UUID of the message letter for letter, and where no listed VM has it the first VM of the
list whose name occurs anywhere.
-/

namespace CloudVM.Assistant

open Access Text

section Naming

/-- The id stands in the message, in any letter case. -/
def mentions (message id : String) : Bool :=
  message.toList.tails.any fun t => (id.toList.map Char.toLower).isPrefixOf (t.map Char.toLower)

/-- The name stands in the text with no character of a word before or behind it. The character
before the text is given. -/
def standsWhole (word : Char → Bool) (name : List Char) : Option Char → List Char → Bool
  | before, [] => name.isEmpty && !before.any word
  | before, c :: text =>
    (name.isPrefixOf (c :: text) && !before.any word &&
      !((c :: text).drop name.length).head?.any word) ||
    standsWhole word name (some c) text

variable {Token : Type} (S : AiService Token) (word : Char → Bool)

def wholeName (message name : String) : Bool :=
  standsWhole word (S.toLowerCase name).toList none (S.toLowerCase message).toList

/-- What the message must say for this VM to be proposed. -/
structure Named (message : String) (vms : List VmContextItem) (vmId vmName : String) : Prop where
  named : mentions message vmId = true ∨
    (findUuid message = none ∧ wholeName S word message vmName = true)
  only : ∀ u ∈ vms, mentions message u.id = true → u.id = vmId

/-- The first VM of the list whose name occurs in the message. -/
def firstNamed (message : String) (vms : List VmContextItem) : Option VmContextItem :=
  vms.find? fun vm => contains (S.toLowerCase message) (S.toLowerCase vm.name)

/-- No listed id but this one stands in the message. -/
def NoOtherId (message : String) (vms : List VmContextItem) (id : String) : Prop :=
  ∀ u ∈ vms, mentions message u.id = true → u.id = id

/-- The first UUID of the message is a listed id letter for letter and no other id is there; or it
is not, and the first VM whose name occurs is there with its id too; or there is no UUID, and the
first VM whose name occurs is there with its whole name. -/
def Unmistakable (message : String) (vms : List VmContextItem) : Prop :=
  match findUuid message with
  | some id =>
    if id ∈ vms.map VmContextItem.id then NoOtherId message vms id
    else ∀ v, firstNamed S message vms = some v →
      mentions message v.id = true ∧ NoOtherId message vms v.id
  | none => ∀ v, firstNamed S message vms = some v →
      wholeName S word message v.name = true ∧ NoOtherId message vms v.id

end Naming

section Uuids

private theorem class_toLower {p : Char → Bool}
    (h : ∀ n : Fin 26, p (Char.ofNat (65 + n)) = p (Char.ofNat (65 + n)).toLower) (c : Char) :
    p c = p c.toLower := by
  by_cases hupper : 65 ≤ c.toNat ∧ c.toNat ≤ 90
  · obtain ⟨hlow, hhigh⟩ := hupper
    have hc : c = Char.ofNat (65 + (⟨c.toNat - 65, by omega⟩ : Fin 26)) := by
      simp only
      rw [Nat.add_sub_of_le hlow, Char.ofNat_toNat]
    rw [hc]
    exact h _
  · have hsame : c.toLower = c := by
      delta Char.toLower
      rw [dif_neg]
      intro hrange
      exact hupper ⟨hrange.1, hrange.2⟩
    rw [hsame]

private theorem uuidClasses_toLower : ∀ p ∈ uuidClasses, ∀ c, p c = p c.toLower := by
  have hhex : ∀ c, isHex c = isHex c.toLower := class_toLower (by decide)
  have hdash : ∀ c : Char, (c == '-') = (c.toLower == '-') :=
    class_toLower (p := fun c => c == '-') (by decide)
  have hversion : ∀ c : Char, (decide ('1' ≤ c) && decide (c ≤ '5')) =
      (decide ('1' ≤ c.toLower) && decide (c.toLower ≤ '5')) :=
    class_toLower (p := fun c => '1' ≤ c && c ≤ '5') (by decide)
  have hvariant : ∀ c : Char, "89abAB".toList.contains c = "89abAB".toList.contains c.toLower :=
    class_toLower (p := fun c => "89abAB".toList.contains c) (by decide)
  have hblock : ∀ n, ∀ p ∈ List.replicate n isHex, ∀ c, p c = p c.toLower := by
    intro n p hp
    rw [List.eq_of_mem_replicate hp]
    exact hhex
  simp only [uuidClasses, List.forall_mem_append, List.forall_mem_singleton]
  exact ⟨⟨⟨⟨⟨⟨⟨⟨⟨⟨hblock 8, hdash⟩, hblock 4⟩, hdash⟩, hversion⟩, hblock 3⟩, hdash⟩, hvariant⟩,
    hblock 3⟩, hdash⟩, hblock 12⟩

private theorem matchClasses_of_lower {ps : List (Char → Bool)}
    (hps : ∀ p ∈ ps, ∀ c, p c = p c.toLower) {l t : List Char}
    (hl : matchClasses ps l = some []) (h : l.map Char.toLower <+: t.map Char.toLower) :
    (matchClasses ps t).isSome = true := by
  induction ps generalizing l t with
  | nil => rfl
  | cons p ps ih =>
    match l, t with
    | [], _ => cases hl
    | c :: l, [] => simp at h
    | c :: l, d :: t =>
      obtain ⟨hcd, hrest⟩ := List.cons_prefix_cons.mp h
      have hpc : p c = true := by
        by_contra hno
        simp [matchClasses, hno] at hl
      have hpd : p d = true := by
        rw [hps p (by simp) d, ← hcd, ← hps p (by simp) c, hpc]
      rw [matchClasses, if_pos hpc] at hl
      rw [matchClasses, if_pos hpd]
      exact ih (fun q hq => hps q (by simp [hq])) hl hrest

theorem mentions_iff {message id : String} :
    mentions message id = true ↔
      ∃ t, t <:+ message.toList ∧ id.toList.map Char.toLower <+: t.map Char.toLower := by
  simp [mentions, List.any_eq_true, List.mem_tails]

private theorem mentions_of_findUuid {message id : String} (h : findUuid message = some id) :
    mentions message id = true := by
  obtain ⟨t, ht, rfl⟩ := Option.map_eq_some_iff.mp h
  rw [mentions_iff]
  refine ⟨t, (List.mem_tails _ _).mp (List.mem_of_find?_eq_some ht), ?_⟩
  rw [String.toList_ofList]
  exact (List.take_prefix 36 t).map _

private theorem not_mentions {message id : String} (hid : isUuid id = true)
    (h : findUuid message = none) : mentions message id = false := by
  rw [Bool.eq_false_iff]
  intro hmentions
  obtain ⟨t, ht, hprefix⟩ := mentions_iff.mp hmentions
  have hsome := matchClasses_of_lower uuidClasses_toLower (of_decide_eq_true hid) hprefix
  rw [findUuid, Option.map_eq_none_iff] at h
  exact List.find?_eq_none.mp h t ((List.mem_tails _ _).mpr ht) hsome

end Uuids

section Proposal

variable {Token : Type} (S : AiService Token) (word : Char → Bool)

private theorem findTarget_of_proposal {message : String} {user : CurrentUser}
    {vms : List VmContextItem} {now : ℕ} {p : PendingAction Token}
    (h : detectPendingAction S message user vms now = .ok (some p)) :
    ∃ vm, findTarget S message vms = some vm ∧ vm.id = p.vmId ∧ vm.name = p.vmName := by
  unfold detectPendingAction at h
  split at h
  · cases h
  · split at h
    · cases h
    · rename_i vm hvm
      split at h
      · cases h
      · obtain ⟨_, -, hp⟩ := bind_ok h
        obtain rfl := Option.some.inj (Except.ok.inj hp)
        exact ⟨vm, hvm, rfl, rfl⟩

private theorem findTarget_cases {message : String} {vms : List VmContextItem} {vm : VmContextItem}
    (h : findTarget S message vms = some vm) :
    (findUuid message = some vm.id ∧ vm.id ∈ vms.map VmContextItem.id) ∨
      (firstNamed S message vms = some vm ∧
        ∀ id, findUuid message = some id → id ∉ vms.map VmContextItem.id) := by
  simp only [findTarget] at h
  rcases Option.or_eq_some_iff.mp h with h | ⟨hnone, h⟩
  · obtain ⟨id, hid, hfind⟩ := Option.bind_eq_some_iff.mp h
    have heq : vm.id = id := by simpa using List.find?_some hfind
    left
    exact ⟨heq ▸ hid, List.mem_map_of_mem (List.mem_of_find?_eq_some hfind)⟩
  · right
    refine ⟨h, ?_⟩
    intro id hid hmem
    obtain ⟨u, hu, hue⟩ := List.mem_map.mp hmem
    rw [hid, Option.bind_some, List.find?_eq_none] at hnone
    exact hnone u hu (by simpa using hue)

/-- The VM of a proposal has been named in the message exactly if the message is unmistakable. -/
theorem proposal_named_iff (message : String) (user : CurrentUser) (vms : List VmContextItem)
    (now : ℕ) (p : PendingAction Token)
    (h : detectPendingAction S message user vms now = .ok (some p)) :
    Named S word message vms p.vmId p.vmName ↔ Unmistakable S word message vms := by
  obtain ⟨vm, hvm, hid, hname⟩ := findTarget_of_proposal S h
  obtain ⟨-, huuid, -⟩ := detectPendingAction_spec h
  rw [← hid] at huuid ⊢
  rw [← hname]
  rcases findTarget_cases S hvm with ⟨hfirst, hlisted⟩ | ⟨hfirst, hunlisted⟩
  · rw [Unmistakable, hfirst]
    simp only [hlisted, if_true]
    constructor
    · intro hnamed
      exact hnamed.only
    · intro hother
      exact ⟨.inl (mentions_of_findUuid hfirst), hother⟩
  · cases hfind : findUuid message with
    | some id =>
      rw [Unmistakable, hfind]
      simp only [hunlisted id hfind, if_false, hfirst, Option.some.injEq, forall_eq']
      constructor
      · intro hnamed
        refine ⟨hnamed.named.elim (fun hm => hm) fun hm => ?_, hnamed.only⟩
        rw [hfind] at hm
        cases hm.1
      · intro hclear
        exact ⟨.inl hclear.1, hclear.2⟩
    | none =>
      rw [Unmistakable, hfind]
      simp only [hfirst, Option.some.injEq, forall_eq']
      constructor
      · intro hnamed
        refine ⟨hnamed.named.elim (fun hm => ?_) fun hm => hm.2, hnamed.only⟩
        rw [not_mentions huuid hfind] at hm
        cases hm
      · intro hclear
        exact ⟨.inr ⟨hfind, hclear.1⟩, hclear.2⟩

/-- A letter, a digit, a hyphen or an underscore. -/
def nameChar (c : Char) : Bool := c.isAlphanum || c == '-' || c == '_'

def sampleVms : List VmContextItem :=
  [⟨"11111111-1111-4111-8111-111111111111", "web-1", "RUNNING"⟩,
    ⟨"22222222-2222-4222-8222-222222222222", "web-10", "RUNNING"⟩]

/-- The name of the first VM is a part of the name that the user means. -/
theorem stop_proposed_for_other_vm :
    (∃ token, detectPendingAction plainService "stop web-10" ⟨"u", "u@example.com", "USER"⟩ sampleVms
      0 = .ok (some ⟨.stop, "11111111-1111-4111-8111-111111111111", "web-1", token⟩)) ∧
    ¬ Named plainService nameChar "stop web-10" sampleVms "11111111-1111-4111-8111-111111111111"
      "web-1" := by
  refine ⟨⟨_, by rfl⟩, ?_⟩
  intro h
  rcases h.named with hid | ⟨-, hname⟩
  · exact absurd hid (by decide)
  · exact absurd hname (by decide)

theorem proposal_named_iff_web :
    (∃ token, detectPendingAction plainService "stop web-1" ⟨"u", "u@example.com", "USER"⟩ sampleVms
      0 = .ok (some ⟨.stop, "11111111-1111-4111-8111-111111111111", "web-1", token⟩)) ∧
    (Named plainService nameChar "stop web-1" sampleVms "11111111-1111-4111-8111-111111111111"
      "web-1" ↔ Unmistakable plainService nameChar "stop web-1" sampleVms) :=
  ⟨⟨_, by rfl⟩, proposal_named_iff plainService nameChar "stop web-1" ⟨"u", "u@example.com", "USER"⟩
    sampleVms 0 ⟨.stop, "11111111-1111-4111-8111-111111111111", "web-1", _⟩ (by rfl)⟩

end Proposal

end CloudVM.Assistant
