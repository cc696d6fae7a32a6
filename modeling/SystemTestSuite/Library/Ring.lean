import Mathlib.Data.Nat.ModEq
import Mathlib.Logic.Function.Basic

namespace SystemTestSuite.Library

/-- The holders after `n` items: item `m` is still there unless `size` more have come. -/
def RingFilled (size n : ℕ) (holder : ℕ → Option ℕ) : Prop :=
  ∀ slot m, holder slot = some m ↔ m < n ∧ n ≤ m + size ∧ m % size = slot

namespace RingFilled

variable {size n : ℕ} {holder : ℕ → Option ℕ}

theorem empty (size : ℕ) : RingFilled size 0 (fun _ => none) := by
  intro slot m
  simp

theorem unique_of_mod {m : ℕ} (hm : m < n) (hn : n ≤ m + size) (hslot : m % size = n % size) :
    n = m + size := by
  have hdvd : size ∣ n - m := (Nat.modEq_iff_dvd' hm.le).mp hslot
  have hle := Nat.le_of_dvd (by omega) hdvd
  omega

theorem fill (h : RingFilled size n holder) (hsize : 0 < size) :
    RingFilled size (n + 1) (Function.update holder (n % size) (some n)) := by
  intro slot m
  by_cases hslot : slot = n % size
  · rw [hslot, Function.update_self, Option.some.injEq]
    constructor
    · rintro rfl
      exact ⟨by omega, by omega, rfl⟩
    · rintro ⟨hm, hn, hmod⟩
      by_contra hne
      have := unique_of_mod (by omega) (by omega) hmod
      omega
  · rw [Function.update_of_ne hslot, h slot m]
    constructor
    · rintro ⟨hm, hn, hmod⟩
      refine ⟨by omega, ?_, hmod⟩
      rcases Nat.lt_or_ge n (m + size) with hlt | hge
      · omega
      · have heq : n = m + size := by omega
        rw [heq, Nat.add_mod_right] at hslot
        exact absurd hmod.symm hslot
    · rintro ⟨hm, hn, hmod⟩
      have hne : m ≠ n := by
        rintro rfl
        exact hslot hmod.symm
      exact ⟨by omega, by omega, hmod⟩

theorem kept_iff (h : RingFilled size n holder) (r : ℕ) :
    (∀ m, r ≤ m → m < n → ∃ slot, holder slot = some m) ↔ n ≤ r + size := by
  constructor
  · intro hkept
    by_contra hlost
    obtain ⟨slot, hslot⟩ := hkept r (le_refl r) (by omega)
    have := ((h slot r).mp hslot).2.1
    omega
  · intro hle m hr hm
    exact ⟨m % size, (h _ m).mpr ⟨hm, by omega, rfl⟩⟩

end RingFilled

end SystemTestSuite.Library
