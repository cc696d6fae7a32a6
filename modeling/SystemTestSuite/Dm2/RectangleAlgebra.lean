import SystemTestSuite.Dm2.Repaint
import Mathlib.Order.Lattice
import Mathlib.Order.Bounds.Basic

namespace SystemTestSuite.Dm2

@[ext] structure SizedRectangle where
  rect : OltkRectangle
  sized : Sized rect

def Encloses (s r : OltkRectangle) : Prop :=
  ∀ px py, hasPoint r px py = true → hasPoint s px py = true

def invalidateAll (last : OltkRectangle) (rects : List SizedRectangle) : OltkRectangle :=
  rects.foldl (fun invalid r => oltkInvalidate invalid r.rect) { last with width := 0 }

def rectIntersectInto (rect1 rect2 : OltkRectangle) : ℤ × OltkRectangle :=
  let empty := (0, { rect1 with width := 0 })
  if rect1.width = 0 ∨ rect1.height = 0 ∨ rect2.width = 0 ∨ rect2.height = 0 then empty
  else
    let l := rect1.x
    let r := rect1.x + rect1.width
    let t := rect1.y
    let b := rect1.y + rect1.height
    let l := if l < rect2.x then rect2.x else l
    let r := if r > rect2.x + rect2.width then rect2.x + rect2.width else r
    if l ≥ r then empty
    else
      let t := if t < rect2.y then rect2.y else t
      let b := if b > rect2.y + rect2.height then rect2.y + rect2.height else b
      if t ≥ b then empty else (1, ⟨l, t, r - l, b - t⟩)

structure LeastEnclosing (s : OltkRectangle) (rects : List SizedRectangle) : Prop where
  encloses : ∀ r ∈ rects, Encloses s r.rect
  least : ∀ t, (∀ r ∈ rects, Encloses t r.rect) → Encloses t s

theorem encloses_iff {s r : OltkRectangle} (hr : Sized r) :
    Encloses s r ↔ (s.x ≤ r.x ∧ r.x + r.width ≤ s.x + s.width) ∧
      s.y ≤ r.y ∧ r.y + r.height ≤ s.y + s.height := by
  simp only [Encloses, hasPoint, Bool.and_eq_true, decide_eq_true_eq]
  rw [Sized] at hr
  constructor
  · intro h
    have hfirst := h r.x r.y (by omega)
    have hlast := h (r.x + r.width - 1) (r.y + r.height - 1) (by omega)
    omega
  · intro h px py hp
    omega

theorem Encloses.sized {s r : OltkRectangle} (h : Encloses s r) (hr : Sized r) : Sized s := by
  have hsides := (encloses_iff hr).mp h
  rw [Sized] at hr ⊢
  omega

theorem encloses_oltkInvalidate {d r t : OltkRectangle} (hd : Sized d) (hr : Sized r)
    (hdt : Encloses t d) (hrt : Encloses t r) : Encloses t (oltkInvalidate d r) := by
  rw [encloses_iff (sized_oltkInvalidate (Or.inr hd) hr)]
  rw [encloses_iff hd] at hdt
  rw [encloses_iff hr] at hrt
  have harea : d.width * d.height ≠ 0 :=
    Int.mul_ne_zero (Int.ne_of_gt hd.1) (Int.ne_of_gt hd.2)
  rw [oltkInvalidate, if_neg harea]
  dsimp only
  constructor
  · constructor <;> split_ifs <;> omega
  · constructor <;> split_ifs <;> omega

instance : SemilatticeSup SizedRectangle where
  le r s := Encloses s.rect r.rect
  le_refl r := fun _ _ h => h
  le_trans r s t hrs hst := fun px py h => hst px py (hrs px py h)
  le_antisymm r s hrs hsr := by
    rw [encloses_iff r.sized] at hrs
    rw [encloses_iff s.sized] at hsr
    have hx : r.rect.x = s.rect.x := by omega
    have hy : r.rect.y = s.rect.y := by omega
    have hwidth : r.rect.width = s.rect.width := by omega
    have hheight : r.rect.height = s.rect.height := by omega
    obtain ⟨⟨x, y, width, height⟩, hr⟩ := r
    obtain ⟨⟨x', y', width', height'⟩, hs⟩ := s
    dsimp only at hx hy hwidth hheight
    subst hx hy hwidth hheight
    rfl
  sup r s := ⟨oltkInvalidate r.rect s.rect, sized_oltkInvalidate (Or.inr r.sized) s.sized⟩
  le_sup_left _ _ := fun _ _ h => hasPoint_oltkInvalidate (Or.inl h)
  le_sup_right _ _ := fun _ _ h => hasPoint_oltkInvalidate (Or.inr h)
  sup_le r s _ hrt hst := encloses_oltkInvalidate r.sized s.sized hrt hst

theorem isLUB_foldl_sup {α : Type} [SemilatticeSup α] (a : α) (l : List α) :
    IsLUB {x | x ∈ a :: l} (l.foldl (· ⊔ ·) a) := by
  induction l generalizing a with
  | nil => simp
  | cons b l ih =>
    apply (isLUB_congr _).mp (ih (a ⊔ b))
    ext u
    simp [mem_upperBounds, and_assoc]

theorem invalidateAll_cons (last : OltkRectangle) (r : SizedRectangle) (rs : List SizedRectangle) :
    invalidateAll last (r :: rs) = (rs.foldl (· ⊔ ·) r).rect := by
  have hfirst : oltkInvalidate { last with width := 0 } r.rect = r.rect :=
    if_pos (Int.zero_mul _)
  rw [invalidateAll, List.foldl_cons, hfirst]
  clear hfirst
  induction rs generalizing r with
  | nil => rfl
  | cons s rs ih => exact ih (r ⊔ s)

theorem invalidateAll_least (last : OltkRectangle) (rects : List SizedRectangle) :
    LeastEnclosing (invalidateAll last rects) rects := by
  cases rects with
  | nil =>
    refine ⟨fun r hr => absurd hr List.not_mem_nil, fun t _ px py hp => ?_⟩
    rw [invalidateAll, List.foldl_nil, hasPoint_empty (Int.zero_mul _)] at hp
    cases hp
  | cons r rs =>
    obtain ⟨hupper, hleast⟩ := isLUB_foldl_sup r rs
    rw [invalidateAll_cons]
    refine ⟨fun s hs => hupper hs, fun t ht => ?_⟩
    have hsized : Sized t := (ht r List.mem_cons_self).sized r.sized
    exact hleast (a := ⟨t, hsized⟩) fun s hs => ht s hs

theorem invalidateAll_congr (last : OltkRectangle) {rects rects' : List SizedRectangle}
    (h : ∀ r, r ∈ rects ↔ r ∈ rects') : invalidateAll last rects = invalidateAll last rects' := by
  cases rects with
  | nil =>
    have hnil : rects' = [] := List.eq_nil_iff_forall_not_mem.mpr fun r hr =>
      List.not_mem_nil ((h r).mpr hr)
    rw [hnil]
  | cons r rs =>
    cases rects' with
    | nil => exact absurd ((h r).mp List.mem_cons_self) List.not_mem_nil
    | cons r' rs' =>
      have hsame : {x | x ∈ r :: rs} = {x | x ∈ r' :: rs'} := Set.ext h
      have hlub := isLUB_foldl_sup r rs
      rw [hsame] at hlub
      rw [invalidateAll_cons, invalidateAll_cons, hlub.unique (isLUB_foldl_sup r' rs')]

theorem ite_lt_max (a b : ℤ) : (if a < b then b else a) = max a b := (max_def_lt a b).symm

theorem ite_gt_min (a b : ℤ) : (if a > b then b else a) = min a b := by
  rw [min_comm]
  exact (min_def_lt b a).symm

theorem rectIntersectInto_eq (rect1 rect2 : OltkRectangle) :
    rectIntersectInto rect1 rect2 =
      if ((rect1.width ≠ 0 ∧ rect1.height ≠ 0) ∧ rect2.width ≠ 0 ∧ rect2.height ≠ 0) ∧
          max rect1.x rect2.x < min (rect1.x + rect1.width) (rect2.x + rect2.width) ∧
            max rect1.y rect2.y < min (rect1.y + rect1.height) (rect2.y + rect2.height) then
        (1, ⟨max rect1.x rect2.x, max rect1.y rect2.y,
          min (rect1.x + rect1.width) (rect2.x + rect2.width) - max rect1.x rect2.x,
          min (rect1.y + rect1.height) (rect2.y + rect2.height) - max rect1.y rect2.y⟩)
      else (0, { rect1 with width := 0 }) := by
  simp only [rectIntersectInto, ite_lt_max, ite_gt_min]
  by_cases hnone : rect1.width = 0 ∨ rect1.height = 0 ∨ rect2.width = 0 ∨ rect2.height = 0
  · rw [if_pos hnone, if_neg (by omega)]
  · rw [if_neg hnone]
    by_cases hacross : max rect1.x rect2.x ≥ min (rect1.x + rect1.width) (rect2.x + rect2.width)
    · rw [if_pos hacross, if_neg (by omega)]
    · rw [if_neg hacross]
      by_cases hdown : max rect1.y rect2.y ≥ min (rect1.y + rect1.height) (rect2.y + rect2.height)
      · rw [if_pos hdown, if_neg (by omega)]
      · rw [if_neg hdown, if_pos (by omega)]

structure IntersectRight (rect1 rect2 : OltkRectangle) : Prop where
  returns : (rectIntersectInto rect1 rect2).1 = 1 ↔
    ∃ px py, hasPoint rect1 px py = true ∧ hasPoint rect2 px py = true
  common : (rectIntersectInto rect1 rect2).1 = 1 →
    ∀ px py, hasPoint (rectIntersectInto rect1 rect2).2 px py = true ↔
      hasPoint rect1 px py = true ∧ hasPoint rect2 px py = true
  empty : (rectIntersectInto rect1 rect2).1 ≠ 1 →
    rectIntersectInto rect1 rect2 = (0, { rect1 with width := 0 })

theorem intersectRight {rect1 rect2 : OltkRectangle} (h1 : 0 ≤ rect1.width ∧ 0 ≤ rect1.height)
    (h2 : 0 ≤ rect2.width ∧ 0 ≤ rect2.height) : IntersectRight rect1 rect2 := by
  have heq := rectIntersectInto_eq rect1 rect2
  split_ifs at heq with hcommon
  · constructor
    · rw [heq]
      apply iff_of_true rfl
      refine ⟨max rect1.x rect2.x, max rect1.y rect2.y, ?_⟩
      simp only [hasPoint, Bool.and_eq_true, decide_eq_true_eq]
      omega
    · intro _ px py
      rw [heq]
      simp only [hasPoint, Bool.and_eq_true, decide_eq_true_eq]
      omega
    · rw [heq]
      exact fun hne => absurd rfl hne
  · constructor
    · rw [heq]
      apply iff_of_false Int.zero_ne_one
      rintro ⟨px, py, hin⟩
      simp only [hasPoint, Bool.and_eq_true, decide_eq_true_eq] at hin
      omega
    · rw [heq]
      exact fun hone => absurd hone Int.zero_ne_one
    · exact fun _ => heq

theorem rectIntersect_iff (rect1 rect2 : OltkRectangle) :
    rectIntersect rect1 rect2 = true ↔ (rectIntersectInto rect1 rect2).1 = 1 := by
  simp only [rectIntersectInto_eq, rectIntersect, ite_lt_max, ite_gt_min]
  by_cases hnone : rect1.width = 0 ∨ rect1.height = 0 ∨ rect2.width = 0 ∨ rect2.height = 0
  · rw [if_pos hnone, if_neg (by omega)]
    exact iff_of_false Bool.false_ne_true Int.zero_ne_one
  · rw [if_neg hnone, Bool.and_eq_true, decide_eq_true_eq, decide_eq_true_eq]
    split_ifs with hcommon
    · exact iff_of_true hcommon.2 rfl
    · exact iff_of_false (fun hlt => hcommon ⟨by omega, hlt⟩) Int.zero_ne_one

theorem rectangle_algebra (last : OltkRectangle) :
    ((∀ rects, LeastEnclosing (invalidateAll last rects) rects) ∧
      ∀ rects rects', (∀ r, r ∈ rects ↔ r ∈ rects') →
        invalidateAll last rects = invalidateAll last rects') ∧
      ∀ rect1 rect2 : OltkRectangle, 0 ≤ rect1.width ∧ 0 ≤ rect1.height →
        0 ≤ rect2.width ∧ 0 ≤ rect2.height → IntersectRight rect1 rect2 :=
  ⟨⟨invalidateAll_least last, fun _ _ => invalidateAll_congr last⟩, fun _ _ => intersectRight⟩

theorem rectangle_algebra_example :
    invalidateAll ⟨3, 3, 3, 3⟩
          [⟨⟨0, 0, 2, 2⟩, by decide⟩, ⟨⟨5, 1, 1, 9⟩, by decide⟩, ⟨⟨-4, 3, 6, 1⟩, by decide⟩] =
        invalidateAll ⟨3, 3, 3, 3⟩
          [⟨⟨-4, 3, 6, 1⟩, by decide⟩, ⟨⟨0, 0, 2, 2⟩, by decide⟩, ⟨⟨5, 1, 1, 9⟩, by decide⟩] ∧
      IntersectRight ⟨0, 0, 4, 4⟩ ⟨2, 1, 4, 5⟩ := by
  obtain ⟨⟨-, hcongr⟩, hintersect⟩ := rectangle_algebra ⟨3, 3, 3, 3⟩
  constructor
  · apply hcongr
    intro r
    simp only [List.mem_cons, List.not_mem_nil, or_false]
    tauto
  · exact hintersect _ _ (by decide) (by decide)

end SystemTestSuite.Dm2
