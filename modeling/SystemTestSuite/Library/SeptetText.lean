import SystemTestSuite.Library.Septets
import Mathlib.Data.Nat.Digits.Defs

/-!
The octets of a text as one number, its lowest octet first, and the septets as the digits of that number to
the base 128.
-/

namespace SystemTestSuite.Library

def octetsNumber (octets : Bytes) : ℕ := Nat.ofDigits 256 (octets.map UInt8.toNat)

def septets (octets : Bytes) (n : ℕ) : Bytes :=
  (List.range n).map fun i => UInt8.ofNat (octetsNumber octets / 128 ^ i % 128)

def cutAfter {α : Type} (p : α → Bool) (l : List α) : List α :=
  l.takeWhile (fun a => !p a) ++ (l.dropWhile fun a => !p a).take 1

@[simp] theorem septets_length (octets : Bytes) (n : ℕ) : (septets octets n).length = n := by
  rw [septets, List.length_map, List.length_range]

section Cut

variable {α : Type} {p : α → Bool} {a : α} {l : List α}

@[simp] theorem cutAfter_nil : cutAfter p [] = [] := rfl

theorem cutAfter_stop (h : p a = true) : cutAfter p (a :: l) = [a] := by
  simp [cutAfter, h]

theorem cutAfter_go (h : p a = false) : cutAfter p (a :: l) = a :: cutAfter p l := by
  simp [cutAfter, h]

theorem cutAfter_initial (p : α → Bool) (l : List α) : cutAfter p l <+: l := by
  induction l with
  | nil => exact List.prefix_rfl
  | cons a l ih =>
    cases h : p a with
    | false =>
      rw [cutAfter_go h]
      exact (List.prefix_cons_inj a).mpr ih
    | true =>
      rw [cutAfter_stop h]
      exact ⟨l, rfl⟩

end Cut

theorem testBit_octetsNumber (octets : Bytes) (k : ℕ) :
    (octetsNumber octets).testBit k = bitAt 8 (ofText octets) k := by
  induction octets generalizing k with
  | nil =>
    change (0 : ℕ).testBit k = (0 : UInt8).toNat.testBit (k % 8)
    rw [Nat.zero_testBit]
    exact (Nat.zero_testBit _).symm
  | cons b octets ih =>
    have hcons : octetsNumber (b :: octets) = 2 ^ 8 * octetsNumber octets + b.toNat := by
      rw [octetsNumber, List.map_cons, Nat.ofDigits_cons, Nat.add_comm]
      rfl
    rw [hcons, Nat.testBit_two_pow_mul_add _ b.toNat_lt]
    split_ifs with hk
    · rw [bitAt, Nat.div_eq_of_lt hk, Nat.mod_eq_of_lt hk]
      rfl
    · have hdiv : k / 8 = (k - 8) / 8 + 1 := by omega
      have hmod : k % 8 = (k - 8) % 8 := by omega
      rw [ih, bitAt, bitAt, hdiv, hmod]
      rfl

theorem unpackedSeptet_number (octets : Bytes) (i : ℕ) :
    unpackedSeptet (ofText octets) i = UInt8.ofNat (octetsNumber octets / 128 ^ i % 128) := by
  have hdigit : octetsNumber octets / 128 ^ i % 128 < 128 := Nat.mod_lt _ (by decide)
  have hvalue : (UInt8.ofNat (octetsNumber octets / 128 ^ i % 128)).toNat =
      octetsNumber octets / 128 ^ i % 128 := by
    rw [UInt8.toNat_ofNat', Nat.mod_eq_of_lt (by omega)]
  have hpow : 128 ^ i = 2 ^ (7 * i) := (Nat.pow_mul 2 7 i).symm
  have hsmall : unpackedSeptet (ofText octets) i < 128 := septetOf_lt _ _ _
  apply septet_ext hsmall
  · rw [UInt8.lt_iff_toNat_lt, hvalue]
    exact hdigit
  · intro c hc
    rw [testBit_unpackedSeptet _ _ hc, ← testBit_octetsNumber, hvalue, hpow]
    change _ = (octetsNumber octets / 2 ^ (7 * i) % 2 ^ 7).testBit c
    rw [Nat.testBit_mod_two_pow, Nat.testBit_div_two_pow, Nat.add_comm]
    simp [hc]

theorem septets_eq_map (octets : Bytes) (n : ℕ) :
    septets octets n = (List.range n).map (unpackedSeptet (ofText octets)) :=
  List.map_congr_left fun i _ => (unpackedSeptet_number octets i).symm

end SystemTestSuite.Library
