import Mathlib.Data.List.Induction
import Mathlib.Data.Nat.Bitwise
import Mathlib.Tactic.Ring

namespace SystemTestSuite.Library

def msbBits (width v : ℕ) : List Bool := (List.range width).map fun j => v.testBit (width - 1 - j)

def msbValue (bits : List Bool) : ℕ := bits.foldl (fun v b => 2 * v + b.toNat) 0

@[simp] theorem msbBits_length (width v : ℕ) : (msbBits width v).length = width := by
  rw [msbBits, List.length_map, List.length_range]

@[simp] theorem msbValue_nil : msbValue [] = 0 := rfl

@[simp] theorem msbValue_concat (bits : List Bool) (b : Bool) :
    msbValue (bits ++ [b]) = 2 * msbValue bits + b.toNat := by
  rw [msbValue, List.foldl_append]
  rfl

theorem msbValue_lt (bits : List Bool) : msbValue bits < 2 ^ bits.length := by
  induction bits using List.reverseRecOn with
  | nil => exact Nat.one_pos
  | append_singleton bits b ih =>
    have hb := Bool.toNat_lt b
    rw [msbValue_concat, List.length_append, List.length_singleton, pow_succ]
    omega

theorem msbBits_succ (width v : ℕ) :
    msbBits (width + 1) v = msbBits width (v / 2) ++ [v.testBit 0] := by
  rw [msbBits, List.range_succ, List.map_append, List.map_singleton]
  congr 1
  · apply List.map_congr_left
    intro j hj
    rw [List.mem_range] at hj
    have hbit : width + 1 - 1 - j = width - 1 - j + 1 := by omega
    rw [hbit, Nat.testBit_succ]
  · rw [Nat.add_sub_cancel, Nat.sub_self]

theorem msbValue_msbBits (width v : ℕ) : msbValue (msbBits width v) = v % 2 ^ width := by
  induction width generalizing v with
  | zero => rw [pow_zero, Nat.mod_one]; rfl
  | succ width ih =>
    have hlow : (v.testBit 0).toNat = v % 2 := by
      rw [Nat.testBit_zero]
      rcases Nat.mod_two_eq_zero_or_one v with h | h <;> simp [h]
    rw [msbBits_succ, msbValue_concat, ih, hlow, pow_succ', Nat.mod_mul]
    ring

theorem flatMap_words {α : Type} {f g : ℕ → List α} {width n : ℕ} (hf : ∀ k, (f k).length = width)
    (hg : ∀ k, (g k).length = width) (h : (List.range n).flatMap f = (List.range n).flatMap g) :
    ∀ i < n, f i = g i := by
  induction n with
  | zero => exact fun i hi => absurd hi (Nat.not_lt_zero i)
  | succ n ih =>
    rw [List.range_succ, List.flatMap_append, List.flatMap_append, List.flatMap_singleton,
      List.flatMap_singleton] at h
    obtain ⟨hfirst, hlast⟩ := List.append_inj' h ((hf n).trans (hg n).symm)
    intro i hi
    rcases Nat.lt_succ_iff_lt_or_eq.mp hi with hlt | rfl
    · exact ih hfirst i hlt
    · exact hlast

end SystemTestSuite.Library
