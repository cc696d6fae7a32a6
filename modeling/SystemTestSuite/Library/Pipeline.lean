import Mathlib.Data.List.Nodup
import Mathlib.Logic.Relation

/-!
A queue in two stages. What arrives waits; the first one waiting is begun and later moves on to
run; the first one running ends or is dropped.
-/

namespace SystemTestSuite.Library

structure Pipeline (α : Type) where
  arrived : List α
  begun : List α
  waiting : List α
  running : List α
  ended : List α
  dropped : List α

namespace Pipeline

variable {α : Type}

inductive Step : Pipeline α → Pipeline α → Prop
  | arrive (p : Pipeline α) (x : α) : x ∉ p.arrived →
      Step p { p with arrived := p.arrived ++ [x], waiting := p.waiting ++ [x] }
  | begin (p : Pipeline α) (x : α) (xs : List α) : p.waiting = x :: xs → x ∉ p.begun →
      Step p { p with begun := p.begun ++ [x] }
  | start (p : Pipeline α) (x : α) (xs : List α) : p.waiting = x :: xs → x ∈ p.begun →
      Step p { p with waiting := xs, running := p.running ++ [x] }
  | finish (p : Pipeline α) (x : α) (xs : List α) : p.running = x :: xs →
      Step p { p with running := xs, ended := p.ended ++ [x] }
  | drop (p : Pipeline α) (x : α) (xs : List α) : p.running = x :: xs →
      Step p { p with running := xs, dropped := p.dropped ++ [x] }

abbrev Steps : Pipeline α → Pipeline α → Prop := Relation.ReflTransGen Step

variable [DecidableEq α]

structure Invariant (p : Pipeline α) : Prop where
  nodup : p.arrived.Nodup
  dropped : p.dropped ⊆ p.arrived
  conserved : p.ended ++ p.running ++ p.waiting = p.arrived.filter (· ∉ p.dropped)
  begun : p.arrived = p.begun ++ p.waiting ∨
    ∃ x xs, p.waiting = x :: xs ∧ x ∈ p.begun ∧ p.arrived = p.begun ++ xs

structure InOrder (p : Pipeline α) : Prop where
  nodup : p.arrived.Nodup
  conserved : p.ended ++ p.running ++ p.waiting = p.arrived.filter (· ∉ p.dropped)
  begun : p.begun <+: p.arrived

namespace Invariant

variable {p : Pipeline α} (h : p.Invariant)

include h

theorem inOrder : p.InOrder := by
  refine ⟨h.nodup, h.conserved, ?_⟩
  rcases h.begun with ha | ⟨x, xs, _, _, ha⟩
  · exact ⟨p.waiting, ha.symm⟩
  · exact ⟨xs, ha.symm⟩

theorem queued_nodup : (p.ended ++ p.running ++ p.waiting).Nodup := by
  rw [h.conserved]
  exact h.nodup.filter _

theorem begun_subset : p.begun ⊆ p.arrived := h.inOrder.begun.subset

theorem queued_arrived {x : α} (hx : x ∈ p.ended ++ p.running ++ p.waiting) : x ∈ p.arrived := by
  rw [h.conserved] at hx
  exact List.mem_of_mem_filter hx

theorem arrive {x : α} (hx : x ∉ p.arrived) :
    Invariant { p with arrived := p.arrived ++ [x], waiting := p.waiting ++ [x] } := by
  have hd : x ∉ p.dropped := fun hmem => hx (h.dropped hmem)
  constructor
  · simp only [List.nodup_append, h.nodup, List.nodup_singleton, true_and, List.mem_singleton]
    rintro a ha _ rfl rfl
    exact hx ha
  · exact List.Subset.trans h.dropped (List.subset_append_left _ _)
  · simp only [List.filter_append, ← h.conserved, ← List.append_assoc]
    simp [hd]
  · rcases h.begun with ha | ⟨y, ys, hw, hy, ha⟩
    · exact Or.inl (by simp [ha])
    · exact Or.inr ⟨y, ys ++ [x], by simp [hw], hy, by simp [ha]⟩

theorem begin {x : α} {xs : List α} (hw : p.waiting = x :: xs) (hx : x ∉ p.begun) :
    Invariant { p with begun := p.begun ++ [x] } := by
  refine ⟨h.nodup, h.dropped, h.conserved, Or.inr ⟨x, xs, hw, by simp, ?_⟩⟩
  rcases h.begun with ha | ⟨y, ys, hw', hy, _⟩
  · simp [ha, hw]
  · have hxy : x = y := (List.cons.inj (hw.symm.trans hw')).1
    exact absurd (hxy ▸ hy) hx

theorem start {x : α} {xs : List α} (hw : p.waiting = x :: xs) (hx : x ∈ p.begun) :
    Invariant { p with waiting := xs, running := p.running ++ [x] } := by
  refine ⟨h.nodup, h.dropped, ?_, Or.inl ?_⟩
  · rw [← h.conserved, hw]
    simp
  · rcases h.begun with ha | ⟨y, ys, hw', _, ha⟩
    · have hn := h.nodup
      rw [ha, hw, List.nodup_append] at hn
      exact absurd rfl (hn.2.2 x hx x (by simp))
    · rw [ha, (List.cons.inj (hw.symm.trans hw')).2]

theorem finish {x : α} {xs : List α} (hr : p.running = x :: xs) :
    Invariant { p with running := xs, ended := p.ended ++ [x] } := by
  refine ⟨h.nodup, h.dropped, ?_, h.begun⟩
  rw [← h.conserved, hr]
  simp

theorem drop {x : α} {xs : List α} (hr : p.running = x :: xs) :
    Invariant { p with running := xs, dropped := p.dropped ++ [x] } := by
  have hn := h.queued_nodup
  have hx : x ∈ p.arrived := h.queued_arrived (by simp [hr])
  refine ⟨h.nodup, ?_, ?_, h.begun⟩
  · simpa [List.append_subset] using ⟨h.dropped, hx⟩
  · have hsplit : p.arrived.filter (· ∉ p.dropped ++ [x]) =
        (p.arrived.filter (· ∉ p.dropped)).filter (· ≠ x) := by
      rw [List.filter_filter]
      apply List.filter_congr
      intro a _
      simp [and_comm]
    have hnot : x ∉ p.ended := by
      rw [hr, List.append_assoc, List.nodup_append] at hn
      exact fun hmem => hn.2.2 x hmem x (by simp) rfl
    have herase := hn.erase_eq_filter x
    rw [hr, List.append_assoc, List.erase_append_right _ hnot, List.cons_append,
      List.erase_cons_head] at herase
    rw [hsplit, ← h.conserved, hr]
    simpa [bne, beq_eq_decide, List.append_assoc] using herase

theorem step {q : Pipeline α} (hs : Step p q) : q.Invariant := by
  cases hs with
  | arrive x hx => exact h.arrive hx
  | begin x xs hw hx => exact h.begin hw hx
  | start x xs hw hx => exact h.start hw hx
  | finish x xs hr => exact h.finish hr
  | drop x xs hr => exact h.drop hr

theorem steps {q : Pipeline α} (hs : Steps p q) : q.Invariant := by
  induction hs with
  | refl => exact h
  | tail _ hs ih => exact ih.step hs

end Invariant

end Pipeline

end SystemTestSuite.Library
