import SystemTestSuite.Library.Memory

/-!
Arrays of a fixed size with every access checked. What has been written to an array from its start
on is a list.
-/

namespace SystemTestSuite.Library

def readArray (size : ℕ) (m : Memory) (i : ℕ) : Option UInt8 := if i < size then some (m i) else none

def push (size : ℕ) (bs : Bytes) (b : UInt8) : Option Bytes :=
  if bs.length < size then some (bs ++ [b]) else none

def sprint (size : ℕ) (bs text : Bytes) : Option Bytes :=
  if bs.length + text.length < size then some (bs ++ text) else none

def printedUpTo (size : ℕ) (m : Memory) : ℕ → ℕ → Option Bytes
  | _, 0 => some []
  | i, n + 1 => do
    let b ← readArray size m i
    if b = 0 then return []
    else return b :: (← printedUpTo size m (i + 1) n)

variable {size i n : ℕ} {m : Memory} {bs cs text : Bytes}

theorem readArray_some (h : i < size) : readArray size m i = some (m i) := if_pos h

theorem pushAll (h : bs.length + cs.length ≤ size) : cs.foldlM (push size) bs = some (bs ++ cs) := by
  induction cs generalizing bs with
  | nil => simp
  | cons c cs ih =>
    rw [List.length_cons] at h
    have hpush : push size bs c = some (bs ++ [c]) := if_pos (by omega)
    have hrest : (bs ++ [c]).length + cs.length ≤ size := by
      rw [List.length_append, List.length_singleton]
      omega
    rw [List.foldlM_cons, hpush, Option.bind_eq_bind, Option.bind_some, ih hrest, List.append_assoc,
      List.singleton_append]

theorem sprint_some (h : bs.length + text.length < size) : sprint size bs text = some (bs ++ text) :=
  if_pos h

theorem sprintAll {f : UInt8 → Bytes} (h : bs.length + (cs.flatMap f).length < size) :
    cs.foldlM (fun bs c => sprint size bs (f c)) bs = some (bs ++ cs.flatMap f) := by
  induction cs generalizing bs with
  | nil => simp
  | cons c cs ih =>
    rw [List.flatMap_cons, List.length_append] at h
    have hrest : (bs ++ f c).length + (cs.flatMap f).length < size := by
      rw [List.length_append]
      omega
    rw [List.foldlM_cons, sprint_some (by omega), Option.bind_eq_bind, Option.bind_some, ih hrest,
      List.append_assoc, List.flatMap_cons]

variable {α β : Type}

theorem foldlM_range {f : α → ℕ → Option α} {g : ℕ → α} (h : ∀ i < n, f (g i) i = some (g (i + 1))) :
    (List.range n).foldlM f (g 0) = some (g n) := by
  induction n with
  | zero => rfl
  | succ n ih =>
    rw [List.range_succ, List.foldlM_append, ih (fun i hi => h i (by omega))]
    simp [h n (Nat.lt_succ_self n)]

theorem foldlM_none {f : α → β → Option α} {l : List β} {b : β} (hb : b ∈ l)
    (h : ∀ a, f a b = none) (a : α) : l.foldlM f a = none := by
  induction l generalizing a with
  | nil => cases hb
  | cons c l ih =>
    rw [List.foldlM_cons]
    rcases List.mem_cons.mp hb with rfl | hb
    · rw [h a]
      rfl
    · cases f a c with
      | none => rfl
      | some a' => exact ih hb a'

theorem printedUpTo_isSome (hi : i ≤ size) : (printedUpTo size m i n).isSome = true ↔
    i + n ≤ size ∨ ∃ j < size, i ≤ j ∧ m j = 0 := by
  induction n generalizing i with
  | zero => exact iff_of_true rfl (Or.inl hi)
  | succ n ih =>
    rcases Nat.lt_or_ge i size with hlt | hge
    · rw [printedUpTo, readArray_some hlt, Option.bind_eq_bind, Option.bind_some]
      by_cases hzero : m i = 0
      · rw [if_pos hzero]
        exact iff_of_true rfl (Or.inr ⟨i, hlt, le_rfl, hzero⟩)
      · have hbehind : (∃ j < size, i ≤ j ∧ m j = 0) ↔ ∃ j < size, i + 1 ≤ j ∧ m j = 0 := by
          constructor
          · rintro ⟨j, hj, hle, hnul⟩
            have hne : i ≠ j := fun heq => hzero (heq ▸ hnul)
            exact ⟨j, hj, by omega, hnul⟩
          · rintro ⟨j, hj, hle, hnul⟩
            exact ⟨j, hj, by omega, hnul⟩
        have hcount : i + (n + 1) = i + 1 + n := by omega
        rw [if_neg hzero, hbehind, hcount, ← ih hlt]
        cases printedUpTo size m (i + 1) n with
        | none => exact Iff.rfl
        | some text => exact Iff.rfl
    · have hread : readArray size m i = none := if_neg (by omega)
      rw [printedUpTo, hread]
      refine iff_of_false Bool.false_ne_true ?_
      rintro (hle | ⟨j, hj, hle, -⟩)
      · omega
      · omega

theorem printedUpTo_eq (h : printedUpTo size m i n = some text) :
    text = (m.slice i n).takeWhile (· ≠ 0) := by
  induction n generalizing i text with
  | zero => exact (Option.some.inj h).symm
  | succ n ih =>
    simp only [printedUpTo, Option.bind_eq_bind, Option.bind_eq_some_iff] at h
    obtain ⟨b, hb, h⟩ := h
    have hread : m i = b := by
      unfold readArray at hb
      split_ifs at hb
      exact Option.some.inj hb
    rw [Memory.slice, List.takeWhile_cons, hread]
    by_cases hzero : b = 0
    · rw [if_pos hzero] at h
      rw [← Option.some.inj h]
      simp [hzero]
    · rw [if_neg hzero] at h
      obtain ⟨rest, hrest, heq⟩ := Option.bind_eq_some_iff.mp h
      rw [← Option.some.inj heq, ih hrest]
      simp [hzero]

theorem printedUpTo_length (h : printedUpTo size m i n = some text) : text.length ≤ n := by
  rw [printedUpTo_eq h]
  exact (List.takeWhile_prefix _).length_le.trans (Memory.slice_length m i n).le

end SystemTestSuite.Library
