import SystemTestSuite.Library.CString
import Mathlib.Data.Nat.Bitwise

namespace SystemTestSuite.Library

def semiOctets : Bytes → Bytes
  | [] => []
  | [c] => [(c - 48 : UInt8) ||| 0xf0]
  | c :: d :: rest => ((c - 48 : UInt8) ||| ((d - 48 : UInt8) <<< 4)) :: semiOctets rest

def semiOctet (b : UInt8) (i : ℕ) : UInt8 :=
  (48 : UInt8) + ((b >>> UInt8.ofNat ((i <<< 2) &&& 4)) &&& 0xf)

theorem semiOctets_length (ds : Bytes) : (semiOctets ds).length = (ds.length + 1) / 2 := by
  match ds with
  | [] => rfl
  | [_] => simp [semiOctets]
  | c :: d :: rest =>
    have hrest := semiOctets_length rest
    rw [semiOctets, List.length_cons, hrest, List.length_cons, List.length_cons]
    omega

theorem shift_and_four (i : ℕ) : (i <<< 2) &&& 4 = 4 * (i % 2) := by
  have h := Nat.and_two_pow (i <<< 2) 2
  rw [Nat.testBit_shiftLeft] at h
  rcases Nat.mod_two_eq_zero_or_one i with hi | hi
  · simpa [Nat.testBit_zero, hi] using h
  · simpa [Nat.testBit_zero, hi] using h

theorem exists_digit {c : UInt8} (h : isDigit c = true) : ∃ n < 10, c = UInt8.ofNat (48 + n) := by
  simp only [isDigit, Bool.and_eq_true, decide_eq_true_eq, UInt8.le_iff_toNat_le] at h
  have hlow : (48 : UInt8).toNat = 48 := rfl
  have hhigh : (57 : UInt8).toNat = 57 := rfl
  refine ⟨c.toNat - 48, by omega, ?_⟩
  rw [show 48 + (c.toNat - 48) = c.toNat by omega, UInt8.ofNat_toNat]

theorem semiOctet_add_two (b : UInt8) (i : ℕ) : semiOctet b (i + 2) = semiOctet b i := by
  rw [semiOctet, semiOctet, shift_and_four, shift_and_four, Nat.add_mod_right]

theorem semiOctet_pair {c d : UInt8} (hc : isDigit c = true) (hd : isDigit d = true) :
    semiOctet ((c - 48 : UInt8) ||| ((d - 48 : UInt8) <<< 4)) 0 = c ∧
      semiOctet ((c - 48 : UInt8) ||| ((d - 48 : UInt8) <<< 4)) 1 = d := by
  obtain ⟨n, hn, rfl⟩ := exists_digit hc
  obtain ⟨m, hm, rfl⟩ := exists_digit hd
  have hall : ∀ n < 10, ∀ m < 10,
      semiOctet ((UInt8.ofNat (48 + n) - 48 : UInt8) |||
          ((UInt8.ofNat (48 + m) - 48 : UInt8) <<< 4)) 0 = UInt8.ofNat (48 + n) ∧
        semiOctet ((UInt8.ofNat (48 + n) - 48 : UInt8) |||
          ((UInt8.ofNat (48 + m) - 48 : UInt8) <<< 4)) 1 = UInt8.ofNat (48 + m) := by
    decide
  exact hall n hn m hm

theorem semiOctet_last {c : UInt8} (hc : isDigit c = true) :
    semiOctet ((c - 48 : UInt8) ||| 0xf0) 0 = c := by
  obtain ⟨n, hn, rfl⟩ := exists_digit hc
  have hall : ∀ n < 10,
      semiOctet ((UInt8.ofNat (48 + n) - 48 : UInt8) ||| 0xf0) 0 = UInt8.ofNat (48 + n) := by
    decide
  exact hall n hn

theorem semiOctet_semiOctets {ds : Bytes} (h : ∀ c ∈ ds, isDigit c = true) {i : ℕ}
    (hi : i < ds.length) :
    (semiOctets ds)[i >>> 1]?.map (semiOctet · i) = some ds[i] := by
  match ds, i with
  | [c], 0 => simpa [semiOctets] using semiOctet_last (h c (by simp))
  | c :: d :: rest, 0 =>
    simpa [semiOctets] using (semiOctet_pair (h c (by simp)) (h d (by simp))).1
  | c :: d :: rest, 1 =>
    simpa [semiOctets] using (semiOctet_pair (h c (by simp)) (h d (by simp))).2
  | c :: d :: rest, i + 2 =>
    have hi' : i < rest.length := by simpa using hi
    have hrest : (semiOctets rest)[i >>> 1]?.map (semiOctet · i) = some rest[i] :=
      semiOctet_semiOctets (fun c hc => h c (by simp [hc])) hi'
    have hhalf : (i + 2) >>> 1 = (i >>> 1) + 1 := by
      rw [Nat.shiftRight_eq_div_pow, Nat.shiftRight_eq_div_pow]
      omega
    simp only [hhalf, semiOctets, List.getElem?_cons_succ, semiOctet_add_two,
      List.getElem_cons_succ]
    exact hrest

end SystemTestSuite.Library
