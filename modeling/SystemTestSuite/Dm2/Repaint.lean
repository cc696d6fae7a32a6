import SystemTestSuite.Dm2.Oltk

namespace SystemTestSuite.Dm2

open Library

theorem rectIntersect_of_common {d r : OltkRectangle} {px py : ℤ} (hr : hasPoint r px py = true)
    (hd : hasPoint d px py = true) : rectIntersect d r = true := by
  simp only [hasPoint, Bool.and_eq_true, decide_eq_true_eq] at hr hd
  unfold rectIntersect
  rw [if_neg (by omega)]
  simp only [Bool.and_eq_true, decide_eq_true_eq]
  split_ifs <;> omega

theorem hasPoint_empty {d : OltkRectangle} (h : d.width * d.height = 0) (px py : ℤ) :
    hasPoint d px py = false := by
  rw [Bool.eq_false_iff]
  intro hpoint
  simp only [hasPoint, Bool.and_eq_true, decide_eq_true_eq] at hpoint
  rcases Int.mul_eq_zero.mp h with hzero | hzero <;> omega

theorem hasPoint_oltkInvalidate {d r : OltkRectangle} {px py : ℤ}
    (h : hasPoint d px py = true ∨ hasPoint r px py = true) :
    hasPoint (oltkInvalidate d r) px py = true := by
  unfold oltkInvalidate
  split_ifs with hempty
  · rw [hasPoint_empty hempty] at h
    simpa using h
  · simp only [hasPoint, Bool.and_eq_true, decide_eq_true_eq] at h ⊢
    split_ifs <;> omega

def oltkPainter : Painter (ℤ × ℤ) ℤ OltkButton OltkRectangle where
  shown b := decide (b.shows ≠ 0)
  covers b p := hasPoint b.rect p.1 p.2
  colour b p := b.draw b.state b.name p.1 p.2
  due d b := b.update || rectIntersect d b.rect
  inside d p := hasPoint d p.1 p.2 = true
  grow d b := oltkInvalidate d b.rect
  due_of_inside hcovers hinside := by
    rw [rectIntersect_of_common hcovers hinside, Bool.or_true]
  inside_grow hinside := hasPoint_oltkInvalidate (Or.inl hinside)
  covers_grow hcovers := hasPoint_oltkInvalidate (Or.inr hcovers)

theorem redrawLoop_at (d : OltkRectangle) (fb : FrameBuffer) (bs : List OltkButton) (px py : ℤ) :
    (redrawLoop d fb bs).2 px py = oltkPainter.repaintAt (px, py) d (fb px py) bs := by
  induction bs generalizing d fb with
  | nil => rfl
  | cons b bs ih =>
    have hdue : (oltkPainter.shown b && oltkPainter.due d b) = true ↔
        b.shows ≠ 0 ∧ (b.update = true ∨ rectIntersect d b.rect = true) := by
      simp [oltkPainter]
    rw [redrawLoop, Painter.repaintAt]
    by_cases h : b.shows ≠ 0 ∧ (b.update = true ∨ rectIntersect d b.rect = true)
    · rw [if_pos h, if_pos (hdue.mpr h), ih]
      rfl
    · rw [if_neg h, if_neg (mt hdue.mp h), ih]

def render (bs : List OltkButton) : FrameBuffer :=
  bs.foldl (fun fb b => if b.shows ≠ 0 then drawButton b fb else fb) (fun _ _ => 0)

theorem render_at (bs : List OltkButton) (px py : ℤ) :
    render bs px py = oltkPainter.renderAt (px, py) 0 bs := by
  have hfold (fb : FrameBuffer) :
      bs.foldl (fun fb b => if b.shows ≠ 0 then drawButton b fb else fb) fb px py =
        oltkPainter.renderAt (px, py) (fb px py) bs := by
    induction bs generalizing fb with
    | nil => rfl
    | cons b bs ih =>
      rw [List.foldl_cons, ih, Painter.renderAt]
      by_cases hshows : b.shows = 0
      · simp [oltkPainter, hshows]
      · simp [oltkPainter, hshows, Painter.paintAt, drawButton]
  exact hfold _

def lineSpan (oltk : Oltk) (x width : ℤ) : ℤ × ℤ :=
  if x ≥ oltk.width then (0, 0)
  else if x < 0 then
    if toUnsigned (x + width) ≤ 0 then (0, 0)
    else (0, if toUnsigned (toUnsigned (width + x)) ≥ oltk.width then oltk.width
      else toUnsigned (width + x))
  else (x, if toUnsigned (x + width) ≥ oltk.width then oltk.width - x else width)

theorem setRow_visible {oltk : Oltk} (fb : FrameBuffer) (x : ℤ) {y : ℤ} (width pixel px py : ℤ)
    (hy : 0 ≤ y ∧ y < oltk.height) : setRow fb x y width pixel px py =
      if py = y ∧ (0 ≤ py ∧ py < oltk.height) ∧ x ≤ px ∧ px < x + width then pixel
      else fb px py := by
  unfold setRow
  congr 1
  apply propext
  constructor
  · rintro ⟨rfl, h⟩
    exact ⟨rfl, hy, h⟩
  · rintro ⟨rfl, -, h⟩
    exact ⟨rfl, h⟩

theorem hline_at (oltk : Oltk) (fb : FrameBuffer) (x y width pixel px py : ℤ) :
    hline oltk fb x y width pixel px py =
      if py = y ∧ (0 ≤ py ∧ py < oltk.height) ∧ (lineSpan oltk x width).1 ≤ px ∧
        px < (lineSpan oltk x width).1 + (lineSpan oltk x width).2 then pixel else fb px py := by
  unfold hline lineSpan
  by_cases hy : 0 ≤ y ∧ y < oltk.height
  · by_cases hx : x ≥ oltk.width
    · rw [if_pos (by omega), if_pos hx, if_neg (by dsimp only; omega)]
    · rw [if_neg (by omega), if_neg hx]
      by_cases hneg : x < 0
      · rw [if_pos hneg, if_pos hneg]
        by_cases hnone : toUnsigned (x + width) ≤ 0
        · rw [if_pos hnone, if_pos hnone, if_neg (by dsimp only; omega)]
        · rw [if_neg hnone, if_neg hnone]
          exact setRow_visible fb 0 _ pixel px py hy
      · rw [if_neg hneg, if_neg hneg]
        exact setRow_visible fb x _ pixel px py hy
  · rw [if_pos (by omega), if_neg (by omega)]

theorem fillRectangle_at (oltk : Oltk) (fb : FrameBuffer) (x y width height color px py : ℤ) :
    fillRectangle oltk fb x y width height color px py =
      if (y ≤ py ∧ py < y + toUnsigned height) ∧ (0 ≤ py ∧ py < oltk.height) ∧
        (lineSpan oltk x (toUnsigned width)).1 ≤ px ∧
        px < (lineSpan oltk x (toUnsigned width)).1 + (lineSpan oltk x (toUnsigned width)).2
      then color else fb px py := by
  have hrows (n : ℕ) : (List.range n).foldl
      (fun fb (i : ℕ) => hline oltk fb x (y + i) (toUnsigned width) color) fb px py =
        if (y ≤ py ∧ py < y + n) ∧ (0 ≤ py ∧ py < oltk.height) ∧
          (lineSpan oltk x (toUnsigned width)).1 ≤ px ∧
          px < (lineSpan oltk x (toUnsigned width)).1 + (lineSpan oltk x (toUnsigned width)).2
        then color else fb px py := by
    induction n with
    | zero => rw [if_neg (by omega)]; rfl
    | succ n ih =>
      rw [List.range_succ, List.foldl_append, List.foldl_cons, List.foldl_nil, hline_at, ih]
      by_cases hrow : py = y + n
      · by_cases hin : (0 ≤ py ∧ py < oltk.height) ∧ (lineSpan oltk x (toUnsigned width)).1 ≤ px ∧
            px < (lineSpan oltk x (toUnsigned width)).1 + (lineSpan oltk x (toUnsigned width)).2
        · rw [if_pos ⟨hrow, hin⟩, if_pos ⟨by push_cast; omega, hin⟩]
        · rw [if_neg (fun h => hin h.2), if_neg (fun h => hin h.2), if_neg (fun h => hin h.2)]
      · rw [if_neg (fun h => hrow h.1)]
        congr 1
        apply propext
        push_cast
        constructor
        · rintro ⟨h, hin⟩
          exact ⟨by omega, hin⟩
        · rintro ⟨h, hin⟩
          exact ⟨by omega, hin⟩
  have hpos : 0 ≤ toUnsigned height := Int.emod_nonneg _ (by decide)
  have h := hrows (toUnsigned height).toNat
  rw [Int.toNat_of_nonneg hpos] at h
  rw [fillRectangle]
  exact h

/-- The invalid rectangle has the sizes of an `int`, and the screen too. -/
structure NoOverflow (oltk : Oltk) : Prop where
  screen : (oltk.width : ℤ) < 2 ^ 31
  left : -2 ^ 31 ≤ oltk.invalidRect.x
  right : oltk.invalidRect.x + oltk.invalidRect.width < 2 ^ 31
  width : oltk.invalidRect.width < 2 ^ 31
  height : oltk.invalidRect.height < 2 ^ 31

theorem lineSpan_fits {oltk : Oltk} {x width : ℤ} (hscreen : (oltk.width : ℤ) < 2 ^ 31)
    (hleft : -2 ^ 31 ≤ x) (hright : x + width < 2 ^ 31) (hpos : 0 < width)
    (hwidth : width < 2 ^ 31) {px : ℤ} (hpx : 0 ≤ px ∧ px < oltk.width) :
    (lineSpan oltk x (toUnsigned width)).1 ≤ px ∧
        px < (lineSpan oltk x (toUnsigned width)).1 + (lineSpan oltk x (toUnsigned width)).2 ↔
      (x ≤ px ∧ px < x + width) ∨ x + width < 0 := by
  have hw : toUnsigned width = width := Int.emod_eq_of_lt (Int.le_of_lt hpos) (by omega)
  rw [hw]
  unfold lineSpan
  split_ifs with hout hneg hnone hclip hclip <;> simp only [toUnsigned] at * <;> omega

inductive OltkCall where
  | show' (shows : ℤ)
  | setName (name : Option String)
  | handle (e : Option Sample)

def OltkCall.run (call : OltkCall) (invalid : OltkRectangle) (b : OltkButton) :
    OltkRectangle × OltkButton :=
  match call with
  | .show' shows => oltkButtonShow invalid b shows
  | .setName name => (invalid, oltkButtonSetName b name)
  | .handle e => (invalid, buttonHandle b e)

def oltkStep (oltk : Oltk) (c : ℕ × OltkCall) : Oltk :=
  match oltk.zbuttons[c.1]? with
  | none => oltk
  | some b =>
    { oltk with
      zbuttons := oltk.zbuttons.set c.1 (c.2.run oltk.invalidRect b).2
      invalidRect := (c.2.run oltk.invalidRect b).1 }

def oltkSteps (oltk : Oltk) (calls : List (ℕ × OltkCall)) : Oltk := calls.foldl oltkStep oltk

structure Pending (invalid : OltkRectangle) (b₀ b : OltkButton) : Prop where
  rect : b₀.rect = b.rect
  draw : b₀.draw = b.draw
  hidden : b.shows = 0 → b₀.shows ≠ 0 →
    ∀ px py, hasPoint b.rect px py = true → hasPoint invalid px py = true
  kept : b.update = false → (b₀.shows ≠ 0 ↔ b.shows ≠ 0) ∧ b₀.name = b.name ∧ b₀.state = b.state

theorem Pending.mono {d d' : OltkRectangle} {b₀ b : OltkButton} (h : Pending d b₀ b)
    (hd : ∀ px py, hasPoint d px py = true → hasPoint d' px py = true) : Pending d' b₀ b :=
  ⟨h.rect, h.draw, fun hhid hwas px py hp => hd px py (h.hidden hhid hwas px py hp), h.kept⟩

theorem Pending.refl (d : OltkRectangle) (b : OltkButton) : Pending d b b :=
  ⟨rfl, rfl, fun hhid hwas => absurd hhid hwas, fun _ => ⟨Iff.rfl, rfl, rfl⟩⟩

theorem run_invalid (call : OltkCall) {d : OltkRectangle} (b : OltkButton) {px py : ℤ}
    (h : hasPoint d px py = true) : hasPoint (call.run d b).1 px py = true := by
  cases call with
  | show' shows =>
    simp only [OltkCall.run, oltkButtonShow]
    split_ifs
    · exact hasPoint_oltkInvalidate (Or.inl h)
    · exact h
    · exact h
  | setName name => exact h
  | handle e => exact h

theorem Pending.run {d : OltkRectangle} {b₀ b : OltkButton} (h : Pending d b₀ b)
    (call : OltkCall) : Pending (call.run d b).1 b₀ (call.run d b).2 := by
  cases call with
  | show' shows =>
    simp only [OltkCall.run, oltkButtonShow]
    split_ifs with hnew hhides
    · exact ⟨h.rect, h.draw,
        fun _ _ px py hp => hasPoint_oltkInvalidate (Or.inr hp), fun hup => by cases hup⟩
    · exact ⟨h.rect, h.draw, fun hhid => absurd hhid hhides, fun hup => by cases hup⟩
    · exact h
  | setName name => exact ⟨h.rect, h.draw, h.hidden, fun hup => by cases hup⟩
  | handle e =>
    simp only [OltkCall.run, buttonHandle]
    split_ifs with hout
    · exact h
    · refine ⟨h.rect, h.draw, h.hidden, ?_⟩
      intro hup
      obtain ⟨hold, hsame⟩ := Bool.or_eq_false_iff.mp hup
      obtain ⟨hshows, hname, hstate⟩ := h.kept hold
      have hkeeps := not_not.mp (of_decide_eq_false hsame)
      exact ⟨hshows, hname, hstate.trans hkeeps.symm⟩

theorem forall₂_set {α β : Type} {R : α → β → Prop} {as : List α} {bs : List β}
    (h : List.Forall₂ R as bs) (i : ℕ) {b : β} (hb : ∀ a ∈ as[i]?, R a b) :
    List.Forall₂ R as (bs.set i b) := by
  induction h generalizing i with
  | nil => exact List.Forall₂.nil
  | cons hR hrest ih =>
    cases i with
    | zero => exact List.Forall₂.cons (hb _ rfl) hrest
    | succ i => exact List.Forall₂.cons hR (ih i hb)

theorem forall₂_getElem? {α β : Type} {R : α → β → Prop} {as : List α} {bs : List β}
    (h : List.Forall₂ R as bs) {i : ℕ} {a : α} {b : β} (ha : a ∈ as[i]?) (hb : b ∈ bs[i]?) :
    R a b := by
  induction h generalizing i with
  | nil => cases ha
  | cons hR hrest ih =>
    cases i with
    | zero =>
      cases ha
      cases hb
      exact hR
    | succ i => exact ih ha hb

theorem pending_oltkStep {oltk : Oltk} {bs₀ : List OltkButton}
    (h : List.Forall₂ (Pending oltk.invalidRect) bs₀ oltk.zbuttons) (c : ℕ × OltkCall) :
    List.Forall₂ (Pending (oltkStep oltk c).invalidRect) bs₀ (oltkStep oltk c).zbuttons := by
  unfold oltkStep
  cases hb : oltk.zbuttons[c.1]? with
  | none => exact h
  | some b =>
    apply forall₂_set
    · exact h.imp fun _ _ hp => hp.mono fun _ _ hd => run_invalid c.2 b hd
    · intro b₀ hb₀
      exact (forall₂_getElem? h hb₀ hb).run c.2

theorem pending_oltkSteps {oltk : Oltk} {bs₀ : List OltkButton}
    (h : List.Forall₂ (Pending oltk.invalidRect) bs₀ oltk.zbuttons) (calls : List (ℕ × OltkCall)) :
    List.Forall₂ (Pending (oltkSteps oltk calls).invalidRect) bs₀
      (oltkSteps oltk calls).zbuttons := by
  induction calls generalizing oltk with
  | nil => exact h
  | cons c calls ih => exact ih (pending_oltkStep h c)

theorem oltkSteps_screen (oltk : Oltk) (calls : List (ℕ × OltkCall)) :
    (oltkSteps oltk calls).fb = oltk.fb ∧ (oltkSteps oltk calls).width = oltk.width ∧
      (oltkSteps oltk calls).height = oltk.height := by
  induction calls generalizing oltk with
  | nil => exact ⟨rfl, rfl, rfl⟩
  | cons c calls ih =>
    have hstep : (oltkStep oltk c).fb = oltk.fb ∧ (oltkStep oltk c).width = oltk.width ∧
        (oltkStep oltk c).height = oltk.height := by
      unfold oltkStep
      split <;> exact ⟨rfl, rfl, rfl⟩
    obtain ⟨hfb, hwidth, hheight⟩ := ih (oltkStep oltk c)
    exact ⟨hfb.trans hstep.1, hwidth.trans hstep.2.1, hheight.trans hstep.2.2⟩

def Sized (rect : OltkRectangle) : Prop := 0 < rect.width ∧ 0 < rect.height

instance (rect : OltkRectangle) : Decidable (Sized rect) := inferInstanceAs (Decidable (_ ∧ _))

theorem sized_oltkInvalidate {d r : OltkRectangle} (hd : d.width = 0 ∨ Sized d) (hr : Sized r) :
    Sized (oltkInvalidate d r) := by
  unfold oltkInvalidate
  split_ifs with hempty
  · exact hr
  · rcases hd with hzero | hd
    · rw [hzero, Int.zero_mul] at hempty
      exact (hempty rfl).elim
    · simp only [Sized] at hd hr ⊢
      constructor <;> split_ifs <;> omega

theorem sized_oltkSteps {oltk : Oltk} (hd : oltk.invalidRect.width = 0 ∨ Sized oltk.invalidRect)
    (hbuttons : ∀ b ∈ oltk.zbuttons, Sized b.rect) (calls : List (ℕ × OltkCall)) :
    (oltkSteps oltk calls).invalidRect.width = 0 ∨ Sized (oltkSteps oltk calls).invalidRect := by
  induction calls generalizing oltk with
  | nil => exact hd
  | cons c calls ih =>
    apply ih
    · unfold oltkStep
      cases hb : oltk.zbuttons[c.1]? with
      | none => exact hd
      | some b =>
        cases hcall : c.2 with
        | show' shows =>
          simp only [OltkCall.run, oltkButtonShow]
          split_ifs
          · exact Or.inr (sized_oltkInvalidate hd (hbuttons b (List.mem_of_getElem? hb)))
          · exact hd
          · exact hd
        | setName name => exact hd
        | handle e => exact hd
    · unfold oltkStep
      cases hb : oltk.zbuttons[c.1]? with
      | none => exact hbuttons
      | some b =>
        intro b' hb'
        rcases List.mem_or_eq_of_mem_set hb' with hold | rfl
        · exact hbuttons b' hold
        · have hrect : (c.2.run oltk.invalidRect b).2.rect = b.rect := by
            cases c.2 with
            | show' shows =>
              simp only [OltkCall.run, oltkButtonShow]
              split_ifs <;> rfl
            | setName name => rfl
            | handle e =>
              simp only [OltkCall.run, buttonHandle]
              split_ifs <;> rfl
          rw [hrect]
          exact hbuttons b (List.mem_of_getElem? hb)

def ShowsAll (oltk : Oltk) : Prop :=
  ∀ px py : ℤ, (0 ≤ px ∧ px < oltk.width) → (0 ≤ py ∧ py < oltk.height) →
    oltk.fb px py = render oltk.zbuttons px py

def WipesRow (rect : OltkRectangle) (py : ℤ) : Prop :=
  rect.width * rect.height ≠ 0 ∧ rect.x + rect.width < 0 ∧ rect.y ≤ py ∧
    py < rect.y + rect.height

instance (rect : OltkRectangle) (py : ℤ) : Decidable (WipesRow rect py) :=
  inferInstanceAs (Decidable (_ ∧ _ ∧ _ ∧ _))

theorem Pending.stays {d : OltkRectangle} {b₀ b : OltkButton} (h : Pending d b₀ b) {px py : ℤ}
    (hout : ¬ hasPoint d px py = true) : oltkPainter.Stays (px, py) b₀ b where
  covers := congrArg (hasPoint · px py) h.rect
  hidden hcovers hhid := by
    have hshows : b.shows = 0 := not_not.mp (of_decide_eq_false hhid)
    apply decide_eq_false
    intro hwas
    exact hout (h.hidden hshows hwas px py hcovers)
  kept d' hcovers hshown hdue := by
    obtain ⟨hup, -⟩ := Bool.or_eq_false_iff.mp hdue
    obtain ⟨hshows, hname, hstate⟩ := h.kept hup
    constructor
    · exact decide_eq_true (hshows.mpr (of_decide_eq_true hshown))
    · change b₀.draw b₀.state b₀.name px py = b.draw b.state b.name px py
      rw [h.draw, hname, hstate]

theorem render_updated (bs : List OltkButton) (px py : ℤ) :
    render (bs.map (fun b => { b with update := false })) px py = render bs px py := by
  rw [render, List.foldl_map]
  rfl

def cleared (oltk : Oltk) : FrameBuffer :=
  if oltk.invalidRect.width * oltk.invalidRect.height ≠ 0 then
    fillRectangle oltk oltk.fb oltk.invalidRect.x oltk.invalidRect.y oltk.invalidRect.width
      oltk.invalidRect.height 0
  else oltk.fb

theorem cleared_at {oltk : Oltk} (hfit : NoOverflow oltk)
    (hsized : oltk.invalidRect.width = 0 ∨ Sized oltk.invalidRect) {px py : ℤ}
    (hpx : 0 ≤ px ∧ px < oltk.width) (hpy : 0 ≤ py ∧ py < oltk.height) :
    cleared oltk px py =
      if hasPoint oltk.invalidRect px py = true ∨ WipesRow oltk.invalidRect py then 0
      else oltk.fb px py := by
  unfold cleared
  by_cases hempty : oltk.invalidRect.width * oltk.invalidRect.height = 0
  · rw [if_neg (not_not.mpr hempty), if_neg]
    rintro (hpoint | hwipes)
    · rw [hasPoint_empty hempty] at hpoint
      cases hpoint
    · exact hwipes.1 hempty
  · have hpos : Sized oltk.invalidRect := by
      rcases hsized with hzero | hpos
      · rw [hzero, Int.zero_mul] at hempty
        exact (hempty rfl).elim
      · exact hpos
    have hheight : toUnsigned oltk.invalidRect.height = oltk.invalidRect.height :=
      Int.emod_eq_of_lt (Int.le_of_lt hpos.2) (by have := hfit.height; omega)
    have hspan := lineSpan_fits hfit.screen hfit.left hfit.right hpos.1 hfit.width hpx
    rw [if_pos hempty, fillRectangle_at, hheight]
    congr 1
    apply propext
    simp only [hasPoint, WipesRow, Bool.and_eq_true, decide_eq_true_eq]
    constructor
    · rintro ⟨hrow, -, hin⟩
      rcases hspan.mp hin with hin | hleft
      · exact Or.inl ⟨⟨⟨hin.1, hin.2⟩, hrow.1⟩, hrow.2⟩
      · exact Or.inr ⟨hempty, hleft, hrow⟩
    · rintro (⟨⟨⟨hl, hr⟩, ht⟩, hb⟩ | ⟨-, hleft, hrow⟩)
      · exact ⟨⟨ht, hb⟩, hpy, hspan.mpr (Or.inl ⟨hl, hr⟩)⟩
      · exact ⟨hrow, hpy, hspan.mpr (Or.inr hleft)⟩

theorem oltkRedraw_at (oltk : Oltk) (px py : ℤ) :
    (oltkRedraw oltk).fb px py =
      oltkPainter.repaintAt (px, py) oltk.invalidRect (cleared oltk px py) oltk.zbuttons :=
  redrawLoop_at _ _ _ px py

theorem oltkRedraw_pixel {oltk : Oltk} {bs₀ : List OltkButton} (hfit : NoOverflow oltk)
    (hsized : oltk.invalidRect.width = 0 ∨ Sized oltk.invalidRect)
    (hpending : List.Forall₂ (Pending oltk.invalidRect) bs₀ oltk.zbuttons) {px py : ℤ}
    (hpx : 0 ≤ px ∧ px < oltk.width) (hpy : 0 ≤ py ∧ py < oltk.height)
    (hshows : oltk.fb px py = render bs₀ px py) :
    (oltkRedraw oltk).fb px py = render oltk.zbuttons px py ↔
      (WipesRow oltk.invalidRect py →
        oltkPainter.Repainted (px, py) oltk.invalidRect oltk.zbuttons ∨
          render oltk.zbuttons px py = 0) := by
  rw [oltkRedraw_at, cleared_at hfit hsized hpx hpy, render_at]
  by_cases hin : hasPoint oltk.invalidRect px py = true
  · rw [if_pos (Or.inl hin), Painter.repaintAt_inside hin]
    apply iff_of_true rfl
    intro hwipes
    simp only [hasPoint, Bool.and_eq_true, decide_eq_true_eq] at hin
    have hleft := hwipes.2.1
    omega
  · by_cases hrepainted : oltkPainter.Repainted (px, py) oltk.invalidRect oltk.zbuttons
    · rw [Painter.repaintAt_repainted hrepainted]
      apply iff_of_true
      · exact Painter.renderAt_of_covered (Painter.exists_of_repainted hrepainted) _ _
      · exact fun _ => Or.inl hrepainted
    · rw [Painter.repaintAt_untouched hrepainted]
      by_cases hwipes : WipesRow oltk.invalidRect py
      · rw [if_pos (Or.inr hwipes)]
        constructor
        · exact fun hblack _ => Or.inr hblack.symm
        · intro hkept
          exact ((hkept hwipes).resolve_left hrepainted).symm
      · rw [if_neg (not_or.mpr ⟨hin, hwipes⟩), hshows, render_at]
        apply iff_of_true
        · exact Painter.renderAt_stays (hpending.imp fun _ _ hp => hp.stays hin) hrepainted 0
        · exact fun hwiped => (hwipes hwiped).elim

/-- After any calls the next redraw shows every button as drawn anew if and only if no row is
wiped by an invalid rectangle left of the screen, but for pixels that are black or painted
again. -/
theorem showsAll_iff_rowsKept (prev : Oltk) (hsized : ∀ b ∈ prev.zbuttons, Sized b.rect)
    (hshows : ShowsAll (oltkRedraw prev)) (calls : List (ℕ × OltkCall))
    (hfit : NoOverflow (oltkSteps (oltkRedraw prev) calls)) :
    ShowsAll (oltkRedraw (oltkSteps (oltkRedraw prev) calls)) ↔
      ∀ px py : ℤ, (0 ≤ px ∧ px < prev.width) → (0 ≤ py ∧ py < prev.height) →
        WipesRow (oltkSteps (oltkRedraw prev) calls).invalidRect py →
        oltkPainter.Repainted (px, py) (oltkSteps (oltkRedraw prev) calls).invalidRect
            (oltkSteps (oltkRedraw prev) calls).zbuttons ∨
          render (oltkSteps (oltkRedraw prev) calls).zbuttons px py = 0 := by
  have hbuttons : ∀ b ∈ (oltkRedraw prev).zbuttons, Sized b.rect := by
    intro b hb
    obtain ⟨b', hb', rfl⟩ := List.mem_map.mp hb
    exact hsized b' hb'
  have hrect := @sized_oltkSteps (oltkRedraw prev) (Or.inl rfl) hbuttons calls
  have hpending := @pending_oltkSteps (oltkRedraw prev) _
    (List.forall₂_same.mpr fun b _ => Pending.refl _ b) calls
  obtain ⟨hfb, hwidth, hheight⟩ := oltkSteps_screen (oltkRedraw prev) calls
  have hpixel (px py : ℤ) (hpx : 0 ≤ px ∧ px < prev.width) (hpy : 0 ≤ py ∧ py < prev.height) :=
    oltkRedraw_pixel hfit hrect hpending (hwidth.symm ▸ hpx) (hheight.symm ▸ hpy)
      ((congrFun (congrFun hfb px) py).trans (hshows px py hpx hpy))
  have hscreen : (oltkRedraw (oltkSteps (oltkRedraw prev) calls)).width = prev.width ∧
      (oltkRedraw (oltkSteps (oltkRedraw prev) calls)).height = prev.height := ⟨hwidth, hheight⟩
  constructor
  · intro hall px py hpx hpy
    apply (hpixel px py hpx hpy).mp
    rw [hall px py (hscreen.1.symm ▸ hpx) (hscreen.2.symm ▸ hpy)]
    exact render_updated _ px py
  · intro hkept px py hpx hpy
    rw [hscreen.1] at hpx
    rw [hscreen.2] at hpy
    rw [(hpixel px py hpx hpy).mpr (hkept px py hpx hpy)]
    exact (render_updated _ px py).symm

def besideScreen : Oltk where
  width := 2
  height := 1
  fb _ _ := 0
  zbuttons := [⟨⟨-20, 0, 10, 1⟩, 1, 0, none, .normal, true, fun _ _ _ _ => 3⟩,
    ⟨⟨0, 0, 2, 1⟩, 1, 0, none, .normal, true, fun _ _ _ _ => 7⟩]
  invalidRect := ⟨0, 0, 0, 0⟩

theorem showsAll_besideScreen : ShowsAll (oltkRedraw besideScreen) := by
  intro px py hpx hpy
  have hrow : py = 0 := by simp [oltkRedraw, besideScreen] at hpy; omega
  have hcol : px = 0 ∨ px = 1 := by simp [oltkRedraw, besideScreen] at hpx; omega
  subst hrow
  rcases hcol with rfl | rfl <;> rfl

theorem showsAll_iff_rowsKept_besideScreen :
    ShowsAll (oltkRedraw (oltkSteps (oltkRedraw besideScreen) [(1, .show' 0)])) := by
  apply (showsAll_iff_rowsKept besideScreen (by decide) showsAll_besideScreen [(1, .show' 0)]
    ⟨by decide, by decide, by decide, by decide, by decide⟩).mpr
  intro px py _ _ hwipes
  exact absurd hwipes.2.1 (by decide)

theorem showsAll_besideScreen_lost :
    (∀ b ∈ besideScreen.zbuttons, Sized b.rect) ∧ ShowsAll (oltkRedraw besideScreen) ∧
      NoOverflow (oltkSteps (oltkRedraw besideScreen) [(0, .show' 0)]) ∧
      ¬ ShowsAll (oltkRedraw (oltkSteps (oltkRedraw besideScreen) [(0, .show' 0)])) := by
  refine ⟨by decide, showsAll_besideScreen,
    ⟨by decide, by decide, by decide, by decide, by decide⟩, ?_⟩
  intro hall
  exact absurd (hall 0 0 (by decide) (by decide)) (by decide)

end SystemTestSuite.Dm2
