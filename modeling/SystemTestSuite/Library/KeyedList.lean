import Mathlib.Data.List.Nodup
import Mathlib.Logic.Function.Basic

namespace SystemTestSuite.Library

variable {α κ β : Type} {key : α → κ} {holds : α → β → Prop} {l : List α} {m : κ → Option β}
  {a : α} {b : β}

structure Represents (key : α → κ) (holds : α → β → Prop) (l : List α) (m : κ → Option β) :
    Prop where
  unique : (l.map key).Nodup
  keys : ∀ k, k ∈ l.map key ↔ (m k).isSome = true
  values : ∀ a ∈ l, ∃ b, m (key a) = some b ∧ holds a b

theorem represents_nil : Represents key holds [] (fun _ => none) where
  unique := List.nodup_nil
  keys k := by simp
  values a ha := by cases ha

variable [DecidableEq κ]

def putLast (key : α → κ) (l : List α) (a : α) : List α := l.filter (key · ≠ key a) ++ [a]

theorem mem_putLast {c : α} : c ∈ putLast key l a ↔ c ∈ l ∧ key c ≠ key a ∨ c = a := by
  simp [putLast]

theorem Represents.putLast (h : Represents key holds l m) (ha : holds a b) :
    Represents key holds (putLast key l a) (Function.update m (key a) (some b)) where
  unique := by
    rw [Library.putLast, List.map_append, List.map_singleton]
    apply List.Nodup.append
    · exact h.unique.sublist (List.filter_sublist.map key)
    · exact List.nodup_singleton _
    · intro k hk hlast
      obtain ⟨c, hc, rfl⟩ := List.mem_map.mp hk
      have hne := (List.mem_filter.mp hc).2
      rw [List.mem_singleton.mp hlast] at hne
      simp at hne
  keys k := by
    by_cases hk : k = key a
    · rw [hk, Function.update_self]
      exact iff_of_true (List.mem_map.mpr ⟨a, mem_putLast.mpr (Or.inr rfl), rfl⟩) rfl
    · rw [Function.update_of_ne hk, ← h.keys]
      constructor
      · intro hmem
        obtain ⟨c, hc, rfl⟩ := List.mem_map.mp hmem
        rcases mem_putLast.mp hc with ⟨hc, -⟩ | rfl
        · exact List.mem_map_of_mem hc
        · exact absurd rfl hk
      · intro hmem
        obtain ⟨c, hc, rfl⟩ := List.mem_map.mp hmem
        exact List.mem_map_of_mem (mem_putLast.mpr (Or.inl ⟨hc, hk⟩))
  values c hc := by
    rcases mem_putLast.mp hc with ⟨hc, hne⟩ | rfl
    · rw [Function.update_of_ne hne]
      exact h.values c hc
    · exact ⟨b, Function.update_self .., ha⟩

theorem Represents.holds_last
    (h : Represents key holds (Library.putLast key l a) (Function.update m (key a) (some b))) :
    holds a b := by
  obtain ⟨b', hb', hholds⟩ := h.values a (mem_putLast.mpr (Or.inr rfl))
  rw [Function.update_self] at hb'
  rwa [Option.some.inj hb']

end SystemTestSuite.Library
