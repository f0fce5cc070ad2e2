import Mathlib.Data.List.Basic
import Mathlib.Tactic.Common

/-!
# Base64

Bytes in groups of six bits, and the letters of the two alphabets for them: the standard one,
which fills up to groups of four, and the one for URLs, here without padding. The decoder knows
both alphabets, stops at the first `=` and passes over every other character.
-/

namespace CloudVM.Base64

section Groups

/-- Three bytes are four groups; the last group is filled up with zeros. -/
def groups : List UInt8 → List ℕ
  | a :: b :: c :: bytes =>
    a.toNat / 4 :: (a.toNat % 4 * 16 + b.toNat / 16) :: (b.toNat % 16 * 4 + c.toNat / 64) ::
      c.toNat % 64 :: groups bytes
  | [a, b] => [a.toNat / 4, a.toNat % 4 * 16 + b.toNat / 16, b.toNat % 16 * 4]
  | [a] => [a.toNat / 4, a.toNat % 4 * 16]
  | [] => []

def ungroup : List ℕ → List UInt8
  | w :: x :: y :: z :: rest =>
    .ofNat (w * 4 + x / 16) :: .ofNat (x % 16 * 16 + y / 4) :: .ofNat (y % 4 * 64 + z) :: ungroup rest
  | [w, x, y] => [.ofNat (w * 4 + x / 16), .ofNat (x % 16 * 16 + y / 4)]
  | [w, x] => [.ofNat (w * 4 + x / 16)]
  | _ => []

theorem groups_lt (bytes : List UInt8) : ∀ n ∈ groups bytes, n < 64 := by
  fun_induction groups bytes with
  | case1 a b c bytes ih =>
    have ha := a.toNat_lt
    have hb := b.toNat_lt
    have hc := c.toNat_lt
    simp only [List.forall_mem_cons]
    exact ⟨by omega, by omega, by omega, by omega, ih⟩
  | case2 a b =>
    have ha := a.toNat_lt
    have hb := b.toNat_lt
    simp only [List.forall_mem_cons]
    exact ⟨by omega, by omega, by omega, by simp⟩
  | case3 a =>
    have ha := a.toNat_lt
    simp only [List.forall_mem_cons]
    exact ⟨by omega, by omega, by simp⟩
  | case4 => simp

private theorem ofNat_eq {n : ℕ} {b : UInt8} (h : n = b.toNat) : UInt8.ofNat n = b := by
  rw [h, UInt8.ofNat_toNat]

theorem ungroup_groups (bytes : List UInt8) : ungroup (groups bytes) = bytes := by
  fun_induction groups bytes with
  | case1 a b c bytes ih =>
    have ha := a.toNat_lt
    have hb := b.toNat_lt
    have hc := c.toNat_lt
    rw [ungroup, ih, ofNat_eq (b := a) (by omega), ofNat_eq (b := b) (by omega),
      ofNat_eq (b := c) (by omega)]
  | case2 a b =>
    have ha := a.toNat_lt
    have hb := b.toNat_lt
    rw [ungroup, ofNat_eq (b := a) (by omega), ofNat_eq (b := b) (by omega)]
  | case3 a =>
    have ha := a.toNat_lt
    rw [ungroup, ofNat_eq (b := a) (by omega)]
  | case4 => rfl

end Groups

section Letters

def standard : List Char := "ABCDEFGHIJKLMNOPQRSTUVWXYZabcdefghijklmnopqrstuvwxyz0123456789+/".toList

def url : List Char := "ABCDEFGHIJKLMNOPQRSTUVWXYZabcdefghijklmnopqrstuvwxyz0123456789-_".toList

def letter (alphabet : List Char) (n : ℕ) : Char := alphabet.getD n '='

def number? (c : Char) : Option ℕ := (standard.idxOf? c).or (url.idxOf? c)

def encode (bytes : List UInt8) : List Char :=
  (groups bytes).map (letter standard) ++ List.replicate ((3 - bytes.length % 3) % 3) '='

/-- With the alphabet for URLs and without padding. -/
def encodeUrl (bytes : List UInt8) : List Char := (groups bytes).map (letter url)

def decode (text : List Char) : List UInt8 :=
  ungroup ((text.takeWhile fun c => c ≠ '=').filterMap number?)

theorem number_standard {n : ℕ} (h : n < 64) : number? (letter standard n) = some n := by
  have hall : ∀ m : Fin 64, number? (letter standard m) = some m.val := by decide +kernel
  exact hall ⟨n, h⟩

theorem number_pad {k : ℕ} : ∀ c ∈ List.replicate k '=', number? c = none := by
  intro c hc
  rw [List.eq_of_mem_replicate hc]
  decide

/-- Groups spelled in letters, with anything after them that is no letter. -/
theorem decode_spelled {f : ℕ → Char} (hf : ∀ n < 64, number? (f n) = some n) (bytes : List UInt8)
    {rest : List Char} (hrest : ∀ c ∈ rest, number? c = none) :
    decode ((groups bytes).map f ++ rest) = bytes := by
  have hgroups : (groups bytes).filterMap (number? ∘ f) = groups bytes := by
    have hsome : ∀ n ∈ groups bytes, (number? ∘ f) n = some n := fun n hn => hf n (groups_lt bytes n hn)
    rw [List.filterMap_congr hsome, List.filterMap_some]
  have hletters : ∀ c ∈ (groups bytes).map f, decide (c ≠ '=') = true := by
    intro c hc
    obtain ⟨n, hn, rfl⟩ := List.mem_map.mp hc
    have hnumber := hf n (groups_lt bytes n hn)
    simp only [decide_eq_true_eq]
    intro hpad
    rw [hpad, number_pad '=' (List.mem_replicate.mpr ⟨Nat.one_ne_zero, rfl⟩)] at hnumber
    cases hnumber
  have hrest' : (rest.takeWhile fun c => c ≠ '=').filterMap number? = [] :=
    List.filterMap_eq_nil_iff.mpr fun c hc => hrest c ((List.takeWhile_subset _) hc)
  rw [decode, List.takeWhile_append_of_pos hletters, List.filterMap_append, List.filterMap_map,
    hgroups, hrest', List.append_nil, ungroup_groups]

theorem decode_encode (bytes : List UInt8) : decode (encode bytes) = bytes :=
  decode_spelled (fun _ h => number_standard h) bytes number_pad

theorem mem_encode {bytes : List UInt8} {c : Char} (h : c ∈ encode bytes) :
    c = '=' ∨ number? c ≠ none := by
  rcases List.mem_append.mp h with h | h
  · obtain ⟨n, hn, rfl⟩ := List.mem_map.mp h
    rw [number_standard (groups_lt bytes n hn)]
    exact .inr (Option.some_ne_none n)
  · exact .inl (List.eq_of_mem_replicate h)

theorem encode_eq_nil {bytes : List UInt8} : encode bytes = [] ↔ bytes = [] := by
  constructor
  · intro h
    rw [← decode_encode bytes, h]
    rfl
  · rintro rfl
    rfl

end Letters

end CloudVM.Base64
