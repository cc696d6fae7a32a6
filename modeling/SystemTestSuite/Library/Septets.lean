import SystemTestSuite.Library.Memory
import Mathlib.Data.Nat.Bitwise

namespace SystemTestSuite.Library

def bitAt (w : ℕ) (m : Memory) (p : ℕ) : Bool := (m (p / w)).toNat.testBit (p % w)

def ofText (bs : Bytes) : Memory := fun i => bs[i]?.getD 0

def octetOf (first second : UInt8) (shift : ℕ) : UInt8 :=
  (first &&& 0x7f) >>> UInt8.ofNat shift ||| (second &&& 0x7f) <<< UInt8.ofNat (7 - shift)

def septetOf (high low : UInt8) (i : ℕ) : UInt8 :=
  (high <<< UInt8.ofNat (7 - ((i * 7 + 7) &&& 7)) ||| low >>> UInt8.ofNat ((i * 7) &&& 7)) &&& 0x7f

def packedOctet (m : Memory) (j : ℕ) : UInt8 :=
  octetOf (m (8 * j / 7)) (m (8 * j / 7 + 1)) (8 * j % 7)

def unpackedSeptet (m : Memory) (i : ℕ) : UInt8 :=
  septetOf (m ((i * 7 + 7) / 8)) (m (i * 7 / 8)) i

theorem testBit_mask (b : UInt8) (c : ℕ) :
    (b &&& 0x7f).toNat.testBit c = (b.toNat.testBit c && decide (c < 7)) := by
  rw [UInt8.toNat_and]
  change (b.toNat &&& (2 ^ 7 - 1)).testBit c = _
  rw [Nat.and_two_pow_sub_one_eq_mod, Nat.testBit_mod_two_pow, Bool.and_comm]

theorem testBit_shiftRight (b : UInt8) {k : ℕ} (hk : k < 8) (c : ℕ) :
    (b >>> UInt8.ofNat k).toNat.testBit c = b.toNat.testBit (k + c) := by
  have hmod : (UInt8.ofNat k).toNat % 8 = k := by
    rw [UInt8.toNat_ofNat']
    omega
  rw [UInt8.toNat_shiftRight, hmod, Nat.testBit_shiftRight]

theorem testBit_shiftLeft (b : UInt8) {k : ℕ} (hk : k < 8) (c : ℕ) :
    (b <<< UInt8.ofNat k).toNat.testBit c =
      (decide (c < 8) && (decide (k ≤ c) && b.toNat.testBit (c - k))) := by
  have hmod : (UInt8.ofNat k).toNat % 8 = k := by
    rw [UInt8.toNat_ofNat']
    omega
  rw [UInt8.toNat_shiftLeft, hmod, Nat.testBit_mod_two_pow, Nat.testBit_shiftLeft]

theorem testBit_octetOf (first second : UInt8) {shift b : ℕ} (hs : shift < 7) (hb : b < 8) :
    (octetOf first second shift).toNat.testBit b =
      if shift + b < 7 then first.toNat.testBit (shift + b)
      else second.toNat.testBit (shift + b - 7) := by
  rw [octetOf, UInt8.toNat_or, Nat.testBit_or, testBit_shiftRight _ (by omega),
    testBit_shiftLeft _ (by omega), testBit_mask, testBit_mask]
  split_ifs with h
  · have hlow : ¬ 7 - shift ≤ b := by omega
    simp [h, hlow]
  · have hhigh : 7 - shift ≤ b := by omega
    have hbit : b - (7 - shift) = shift + b - 7 := by omega
    have hlt : shift + b - 7 < 7 := by omega
    simp [h, hb, hhigh, hbit, hlt]

theorem testBit_byte (b : UInt8) {c : ℕ} (hc : 8 ≤ c) : b.toNat.testBit c = false :=
  Nat.testBit_lt_two_pow (b.toNat_lt.trans_le (Nat.pow_le_pow_right (by decide) hc))

theorem and_seven (n : ℕ) : n &&& 7 = n % 8 := Nat.and_two_pow_sub_one_eq_mod n 3

theorem testBit_septetOf (high low : UInt8) (i : ℕ) {c : ℕ} (hc : c < 7) :
    (septetOf high low i).toNat.testBit c =
      if i * 7 % 8 = 0 then high.toNat.testBit c || low.toNat.testBit c
      else if i * 7 % 8 + c < 8 then low.toNat.testBit (i * 7 % 8 + c)
      else high.toNat.testBit (i * 7 % 8 + c - 8) := by
  have hr : i * 7 % 8 < 8 := Nat.mod_lt _ (by decide)
  have hc8 : c < 8 := by omega
  rw [septetOf, testBit_mask, UInt8.toNat_or, Nat.testBit_or, and_seven, and_seven,
    testBit_shiftLeft _ (by omega), testBit_shiftRight _ hr]
  split_ifs with hzero hlow
  · have hshift : 7 - (i * 7 + 7) % 8 = 0 := by omega
    simp [hzero, hshift, hc, hc8]
  · have hshift : ¬ 7 - (i * 7 + 7) % 8 ≤ c := by omega
    simp [hshift, hc]
  · have hshift : 7 - (i * 7 + 7) % 8 ≤ c := by omega
    have hbit : c - (7 - (i * 7 + 7) % 8) = i * 7 % 8 + c - 8 := by omega
    simp [hshift, hbit, hc, hc8, testBit_byte low (not_lt.mp hlow)]

theorem bitAt_packed (m octets : Memory) {j b : ℕ} (hb : b < 8)
    (h : octets j = packedOctet m j) : bitAt 8 octets (8 * j + b) = bitAt 7 m (8 * j + b) := by
  have hdiv : (8 * j + b) / 8 = j := by omega
  have hmod : (8 * j + b) % 8 = b := by omega
  rw [bitAt, bitAt, hdiv, hmod, h, packedOctet, testBit_octetOf _ _ (by omega) hb]
  split_ifs with hfirst
  · have hword : (8 * j + b) / 7 = 8 * j / 7 := by omega
    have hbit : (8 * j + b) % 7 = 8 * j % 7 + b := by omega
    rw [hword, hbit]
  · have hword : (8 * j + b) / 7 = 8 * j / 7 + 1 := by omega
    have hbit : (8 * j + b) % 7 = 8 * j % 7 + b - 7 := by omega
    rw [hword, hbit]

theorem testBit_unpackedSeptet (m : Memory) (i : ℕ) {c : ℕ} (hc : c < 7) :
    (unpackedSeptet m i).toNat.testBit c = bitAt 8 m (7 * i + c) := by
  rw [unpackedSeptet, testBit_septetOf _ _ _ hc, bitAt]
  split_ifs with hzero hlow
  · have hsame : (i * 7 + 7) / 8 = i * 7 / 8 := by omega
    have hword : (7 * i + c) / 8 = i * 7 / 8 := by omega
    have hbit : (7 * i + c) % 8 = c := by omega
    rw [hsame, hword, hbit, Bool.or_self]
  · have hword : (7 * i + c) / 8 = i * 7 / 8 := by omega
    have hbit : (7 * i + c) % 8 = i * 7 % 8 + c := by omega
    rw [hword, hbit]
  · have hword : (7 * i + c) / 8 = (i * 7 + 7) / 8 := by omega
    have hbit : (7 * i + c) % 8 = i * 7 % 8 + c - 8 := by omega
    rw [hword, hbit]

theorem septet_ext {a b : UInt8} (ha : a < 128) (hb : b < 128)
    (h : ∀ c < 7, a.toNat.testBit c = b.toNat.testBit c) : a = b := by
  have hsmall : ∀ {d : UInt8}, d < 128 → ∀ c, 7 ≤ c → d.toNat.testBit c = false := by
    intro d hd c hc
    have hd' : d.toNat < 2 ^ 7 := UInt8.lt_iff_toNat_lt.mp hd
    exact Nat.testBit_lt_two_pow (hd'.trans_le (Nat.pow_le_pow_right (by decide) hc))
  apply UInt8.toNat_inj.mp
  apply Nat.eq_of_testBit_eq
  intro c
  rcases lt_or_ge c 7 with hc | hc
  · exact h c hc
  · rw [hsmall ha c hc, hsmall hb c hc]

theorem septetOf_lt (high low : UInt8) (i : ℕ) : septetOf high low i < 128 := by
  rw [septetOf, UInt8.lt_iff_toNat_lt, UInt8.toNat_and]
  exact Nat.and_lt_two_pow _ (by decide : (0x7f : UInt8).toNat < 2 ^ 7)

theorem septetOf_low {i : ℕ} (h : i * 7 % 8 = 1) (high high' low : UInt8) :
    septetOf high low i = septetOf high' low i := by
  apply septet_ext (septetOf_lt _ _ _) (septetOf_lt _ _ _)
  intro c hc
  have hzero : ¬ i * 7 % 8 = 0 := by omega
  have hlow : i * 7 % 8 + c < 8 := by omega
  rw [testBit_septetOf _ _ _ hc, testBit_septetOf _ _ _ hc, if_neg hzero, if_neg hzero, if_pos hlow,
    if_pos hlow]

theorem unpacked_packed {m octets : Memory} {i n : ℕ} (hi : 7 * i + 7 ≤ 8 * n)
    (hm : m i < 128) (h : ∀ j < n, octets j = packedOctet m j) :
    unpackedSeptet octets i = m i := by
  have hlt : unpackedSeptet octets i < 128 := septetOf_lt _ _ _
  apply septet_ext hlt hm
  intro c hc
  have hsplit : 7 * i + c = 8 * ((7 * i + c) / 8) + (7 * i + c) % 8 := by omega
  have hdiv : (7 * i + c) / 7 = i := by omega
  have hmod : (7 * i + c) % 7 = c := by omega
  rw [testBit_unpackedSeptet _ _ hc, hsplit, bitAt_packed m octets (by omega) (h _ (by omega)),
    ← hsplit, bitAt, hdiv, hmod]

end SystemTestSuite.Library
