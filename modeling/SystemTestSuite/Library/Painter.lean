import Mathlib.Data.List.Forall2

/-!
Layers painted over one another, and repainting some of them. The damage grows with every layer
that is painted again, so that the layers above follow.
-/

namespace SystemTestSuite.Library

/-- `due d l` says that layer `l` is painted again while the damage is `d`. -/
structure Painter (P C L D : Type) where
  shown : L → Bool
  covers : L → P → Bool
  colour : L → P → C
  due : D → L → Bool
  inside : D → P → Prop
  grow : D → L → D
  due_of_inside : ∀ {d l p}, covers l p = true → inside d p → due d l = true
  inside_grow : ∀ {d l p}, inside d p → inside (grow d l) p
  covers_grow : ∀ {d l p}, covers l p = true → inside (grow d l) p

namespace Painter

variable {P C L D : Type} (T : Painter P C L D)

def paintAt (p : P) (l : L) (c : C) : C := if T.covers l p then T.colour l p else c

def renderAt (p : P) (c : C) : List L → C
  | [] => c
  | l :: ls => renderAt p (if T.shown l then T.paintAt p l c else c) ls

def repaintAt (p : P) (d : D) (c : C) : List L → C
  | [] => c
  | l :: ls =>
    if T.shown l && T.due d l then repaintAt p (T.grow d l) (T.paintAt p l c) ls
    else repaintAt p d c ls

def Repainted (p : P) (d : D) : List L → Prop
  | [] => False
  | l :: ls =>
    if T.shown l && T.due d l then T.covers l p = true ∨ Repainted p (T.grow d l) ls
    else Repainted p d ls

variable {T}

theorem repaintAt_inside {p : P} {d : D} (h : T.inside d p) (c : C) (ls : List L) :
    T.repaintAt p d c ls = T.renderAt p c ls := by
  induction ls generalizing d c with
  | nil => rfl
  | cons l ls ih =>
    rw [repaintAt, renderAt]
    by_cases hshown : T.shown l = true
    · by_cases hcovers : T.covers l p = true
      · rw [hshown, T.due_of_inside hcovers h]
        exact ih (T.inside_grow h) _
      · have hpaint : T.paintAt p l c = c := if_neg hcovers
        rw [hshown, hpaint]
        cases T.due d l with
        | true => exact ih (T.inside_grow h) c
        | false => exact ih h c
    · rw [Bool.not_eq_true] at hshown
      rw [hshown]
      exact ih h c

theorem exists_of_repainted {p : P} {d : D} {ls : List L} (h : T.Repainted p d ls) :
    ∃ l ∈ ls, T.shown l = true ∧ T.covers l p = true := by
  induction ls generalizing d with
  | nil => exact h.elim
  | cons l ls ih =>
    rw [Repainted] at h
    split_ifs at h with hdue
    · rcases h with hcovers | hrest
      · exact ⟨l, List.mem_cons_self, (Bool.and_eq_true_iff.mp hdue).1, hcovers⟩
      · obtain ⟨l', hl', h'⟩ := ih hrest
        exact ⟨l', List.mem_cons_of_mem _ hl', h'⟩
    · obtain ⟨l', hl', h'⟩ := ih h
      exact ⟨l', List.mem_cons_of_mem _ hl', h'⟩

theorem renderAt_of_covered {p : P} {ls : List L}
    (h : ∃ l ∈ ls, T.shown l = true ∧ T.covers l p = true) (c c' : C) :
    T.renderAt p c ls = T.renderAt p c' ls := by
  induction ls generalizing c c' with
  | nil =>
    obtain ⟨l, hl, -⟩ := h
    cases hl
  | cons l ls ih =>
    obtain ⟨l', hl', hshown, hcovers⟩ := h
    rw [renderAt, renderAt]
    rcases List.mem_cons.mp hl' with rfl | hrest
    · simp [hshown, paintAt, hcovers]
    · exact ih ⟨l', hrest, hshown, hcovers⟩ _ _

theorem repaintAt_repainted {p : P} {d : D} {ls : List L} (h : T.Repainted p d ls) (c : C) :
    T.repaintAt p d c ls = T.renderAt p c ls := by
  induction ls generalizing d c with
  | nil => exact h.elim
  | cons l ls ih =>
    have hcovered := exists_of_repainted h
    rw [Repainted] at h
    rw [repaintAt, renderAt]
    split_ifs at h ⊢ with hdue hshown hshown
    · rcases h with hcovers | hrest
      · exact repaintAt_inside (T.covers_grow hcovers) _ ls
      · exact ih hrest _
    · simp [hshown] at hdue
    · rw [ih h c]
      exact renderAt_of_covered (exists_of_repainted h) _ _
    · exact ih h c

theorem repaintAt_untouched {p : P} {d : D} {ls : List L} (h : ¬ T.Repainted p d ls) (c : C) :
    T.repaintAt p d c ls = c := by
  induction ls generalizing d with
  | nil => rfl
  | cons l ls ih =>
    rw [Repainted] at h
    rw [repaintAt]
    split_ifs at h ⊢
    · rw [not_or] at h
      have hpaint : T.paintAt p l c = c := if_neg h.1
      rw [hpaint]
      exact ih h.2
    · exact ih h

structure Stays (T : Painter P C L D) (p : P) (l₀ l : L) : Prop where
  covers : T.covers l₀ p = T.covers l p
  hidden : T.covers l p = true → T.shown l = false → T.shown l₀ = false
  kept : ∀ d, T.covers l p = true → T.shown l = true → T.due d l = false →
    T.shown l₀ = true ∧ T.colour l₀ p = T.colour l p

theorem Stays.paint {p : P} {d : D} {l₀ l : L} (h : T.Stays p l₀ l)
    (hdue : ¬ ((T.shown l && T.due d l) = true ∧ T.covers l p = true)) (c : C) :
    (if T.shown l₀ then T.paintAt p l₀ c else c) = if T.shown l then T.paintAt p l c else c := by
  rw [paintAt, paintAt, h.covers]
  by_cases hcovers : T.covers l p = true
  · cases hshown : T.shown l with
    | false =>
      rw [h.hidden hcovers hshown]
      rfl
    | true =>
      have hnot : T.due d l = false := by simpa [hshown, hcovers] using hdue
      obtain ⟨hshown₀, hcolour⟩ := h.kept d hcovers hshown hnot
      rw [hshown₀, hcolour]
  · simp [hcovers]

theorem renderAt_stays {p : P} {d : D} {ls₀ ls : List L} (h : List.Forall₂ (T.Stays p) ls₀ ls)
    (hrepainted : ¬ T.Repainted p d ls) (c : C) : T.renderAt p c ls₀ = T.renderAt p c ls := by
  induction h generalizing d c with
  | nil => rfl
  | @cons l₀ l ls₀ ls hl _ ih =>
    rw [Repainted] at hrepainted
    rw [renderAt, renderAt]
    split_ifs at hrepainted with hdue
    · rw [not_or] at hrepainted
      rw [hl.paint (d := d) (fun hboth => hrepainted.1 hboth.2) c]
      exact ih hrepainted.2 _
    · rw [hl.paint (d := d) (fun hboth => hdue hboth.1) c]
      exact ih hrepainted _

end Painter

end SystemTestSuite.Library
