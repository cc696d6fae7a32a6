import SystemTestSuite.Dm2.PressTracking

namespace SystemTestSuite.Dm2

section

variable (draw : ButtonState → Option String → FrameBuffer)

def oltkButtonAdd (x y width height : ℤ) : OltkButton where
  rect := ⟨x, y, width, height⟩
  shows := 0
  sensitive := 1
  name := none
  state := .normal
  update := true
  draw := draw

structure OltkPopup where
  button : OltkButton
  dialog : OltkButton
  items : List OltkButton

def popupLoop (grHeight : ℤ) (dialog : OltkRectangle) (nItems : ℕ) : ℕ → ℤ → ℤ → List OltkButton
  | 0, _, _ => []
  | i + 1, x, y =>
    let item := oltkButtonAdd draw x y 100 40
    let y := y + (40 + 40)
    if y ≥ grHeight then
      item :: popupLoop grHeight dialog nItems i (dialog.x + 40 * (nItems / 6 + 1 : ℕ) + 100)
        (dialog.y + 25)
    else item :: popupLoop grHeight dialog nItems i x y

def oltkPopupAdd (grHeight x y width height : ℤ) (nItems : ℕ) : OltkPopup :=
  let button := oltkButtonAdd draw x y width height
  let dialogWidth := (100 + 20) * (nItems / 6 + 1 : ℕ) + 20
  let dialogHeight := (30 + 40) * nItems
  let dialogHeight := if dialogHeight ≥ grHeight then grHeight else dialogHeight
  let dialog := oltkButtonSensitive (oltkButtonAdd draw x y dialogWidth dialogHeight) 0
  { button := { button with shows := 1, update := true }
    dialog := dialog
    items := popupLoop draw grHeight dialog.rect nItems nItems (dialog.rect.x + 40)
      (dialog.rect.y + 25) }

end

/-- What `on_popup` does with a sample for the items from number `i` on, and the items whose
`on_popdown` is called. -/
def popupTurn : ℕ → Option Sample → List OltkButton → List OltkButton × List ℕ
  | _, _, [] => ([], [])
  | i, pe, b :: bs =>
    let r := popupTurn (i + 1) (if pe.any (buttonHandled b) then none else pe) bs
    (buttonHandle b pe :: r.1, if pe.any (buttonClicks b) then i :: r.2 else r.2)

structure PopupRight (items : List OltkButton) : Prop where
  disjoint : items.Pairwise fun b c =>
    ∀ px py, ¬ (hasPoint b.rect px py = true ∧ hasPoint c.rect px py = true)
  inside : ∀ px py, items.countP (fun b => hasPoint b.rect px py) ≤ 1
  selects : ∀ bs : List OltkButton, bs.map (·.rect) = items.map (·.rect) →
    ∀ e, (popupTurn 0 (some e) bs).2.length ≤ 1

theorem popupTurn_none (i : ℕ) (bs : List OltkButton) : (popupTurn i none bs).2 = [] := by
  induction bs generalizing i with
  | nil => rfl
  | cons b bs ih =>
    rw [popupTurn]
    exact ih (i + 1)

theorem popupTurn_selects (i : ℕ) (e : Sample) (bs : List OltkButton) :
    (popupTurn i (some e) bs).2.length ≤ 1 := by
  induction bs generalizing i with
  | nil => exact Nat.zero_le 1
  | cons b bs ih =>
    rw [popupTurn]
    cases hhandled : buttonHandled b e with
    | true =>
      simp only [Option.any_some, hhandled, if_true, popupTurn_none]
      split_ifs <;> simp
    | false =>
      have hclicks : buttonClicks b e = false := by simp [buttonClicks, hhandled]
      simp only [Option.any_some, hhandled, hclicks, Bool.false_eq_true, if_false]
      exact ih (i + 1)

theorem countP_le_one {α : Type} {p : α → Bool} {l : List α}
    (h : l.Pairwise fun a b => ¬ (p a = true ∧ p b = true)) : l.countP p ≤ 1 := by
  induction h with
  | nil => exact Nat.zero_le 1
  | @cons a l ha _ ih =>
    cases hp : p a with
    | true =>
      have hnone : l.countP p = 0 := List.countP_eq_zero.mpr fun b hb hpb => ha b hb ⟨hp, hpb⟩
      rw [List.countP_cons_of_pos hp, hnone]
    | false => rwa [List.countP_cons_of_neg (by rw [hp]; exact Bool.false_ne_true)]

theorem popupRight_iff_disjoint (items : List OltkButton) :
    PopupRight items ↔ items.Pairwise fun b c =>
      ∀ px py, ¬ (hasPoint b.rect px py = true ∧ hasPoint c.rect px py = true) := by
  constructor
  · exact fun h => h.disjoint
  · intro h
    refine ⟨h, fun px py => countP_le_one (h.imp fun hbc => hbc px py), ?_⟩
    exact fun bs _ e => popupTurn_selects 0 e bs

section

variable {grHeight : ℤ} {dialog : OltkRectangle} {nItems rows : ℕ}

/-- Item `i`, where a column has `rows` items: all columns behind the first one lie at one place. -/
def itemRect (dialog : OltkRectangle) (nItems rows i : ℕ) : OltkRectangle :=
  ⟨if i < rows then dialog.x + 40 else dialog.x + 40 * (nItems / 6 + 1 : ℕ) + 100,
    dialog.y + 25 + 80 * (i % rows : ℕ), 100, 40⟩

structure ColumnRows (grHeight y : ℤ) (rows : ℕ) : Prop where
  pos : 0 < rows
  fits : ∀ j < rows, 0 < j → y + 80 * j < grHeight
  full : grHeight ≤ y + 80 * rows

theorem exists_columnRows (grHeight y : ℤ) : ∃ rows, ColumnRows grHeight y rows := by
  refine ⟨max 1 ((grHeight - y + 79) / 80).toNat, ?_, ?_, ?_⟩
  · omega
  · intro j hj hpos
    omega
  · omega

theorem next_row {rows : ℕ} (hpos : 0 < rows) (i : ℕ) :
    (i + 1) % rows = if i % rows + 1 = rows then 0 else i % rows + 1 := by
  have hmod : (i + 1) % rows = (i % rows + 1) % rows := by
    conv_lhs => rw [← Nat.div_add_mod i rows, Nat.add_assoc, Nat.mul_add_mod]
  have hlt := Nat.mod_lt i hpos
  rw [hmod]
  split_ifs with hlast
  · rw [hlast, Nat.mod_self]
  · exact Nat.mod_eq_of_lt (by omega)

theorem popupLoop_rects (draw : ButtonState → Option String → FrameBuffer) (nItems : ℕ)
    (hrows : ColumnRows grHeight (dialog.y + 25) rows) (n i : ℕ) :
    (popupLoop draw grHeight dialog nItems n (itemRect dialog nItems rows i).x
        (itemRect dialog nItems rows i).y).map (·.rect) =
      (List.range' i n).map (itemRect dialog nItems rows) := by
  induction n generalizing i with
  | zero => rfl
  | succ n ih =>
    have hnext := next_row hrows.pos i
    have hlt := Nat.mod_lt i hrows.pos
    have hle := Nat.mod_le i rows
    have hsame : i < rows → i % rows = i := Nat.mod_eq_of_lt
    rw [List.range'_succ, List.map_cons, ← ih (i + 1), popupLoop]
    by_cases hlast : i % rows + 1 = rows
    · rw [if_pos hlast] at hnext
      have hwraps : (itemRect dialog nItems rows i).y + (40 + 40) ≥ grHeight := by
        have hfull := hrows.full
        dsimp only [itemRect]
        omega
      have hx : (itemRect dialog nItems rows (i + 1)).x =
          dialog.x + 40 * (nItems / 6 + 1 : ℕ) + 100 := if_neg (by omega)
      have hy : (itemRect dialog nItems rows (i + 1)).y = dialog.y + 25 := by
        rw [itemRect, hnext]
        exact Int.add_zero _
      rw [if_pos hwraps, hx, hy]
      rfl
    · rw [if_neg hlast] at hnext
      have hfits := hrows.fits (i % rows + 1) (by omega) (Nat.succ_pos _)
      have hstays : ¬ (itemRect dialog nItems rows i).y + (40 + 40) ≥ grHeight := by
        dsimp only [itemRect]
        omega
      have hx : (itemRect dialog nItems rows (i + 1)).x = (itemRect dialog nItems rows i).x := by
        dsimp only [itemRect]
        split_ifs <;> omega
      have hy : (itemRect dialog nItems rows (i + 1)).y =
          (itemRect dialog nItems rows i).y + (40 + 40) := by
        dsimp only [itemRect]
        omega
      rw [if_neg hstays, hx, hy]
      rfl

theorem oltkPopupAdd_rects (draw : ButtonState → Option String → FrameBuffer) (nItems : ℕ)
    (x width height : ℤ) {y : ℤ} (hrows : ColumnRows grHeight (y + 25) rows) :
    (oltkPopupAdd draw grHeight x y width height nItems).items.map (·.rect) =
      (List.range nItems).map
        (itemRect (oltkPopupAdd draw grHeight x y width height nItems).dialog.rect nItems rows) := by
  generalize hdialog : (oltkPopupAdd draw grHeight x y width height nItems).dialog.rect = dialog
  have hx : (itemRect dialog nItems rows 0).x = dialog.x + 40 := if_pos hrows.pos
  have hy : (itemRect dialog nItems rows 0).y = dialog.y + 25 := by
    rw [itemRect, Nat.zero_mod]
    exact Int.add_zero _
  have hrows' : ColumnRows grHeight (dialog.y + 25) rows := by rwa [← hdialog]
  have hloop := popupLoop_rects draw nItems hrows' nItems 0
  rw [hx, hy, ← List.range_eq_range', ← hdialog] at hloop
  rw [← hdialog]
  exact hloop

theorem itemRect_common {i j : ℕ} (hij : i < j) :
    (∀ px py, ¬ (hasPoint (itemRect dialog nItems rows i) px py = true ∧
        hasPoint (itemRect dialog nItems rows j) px py = true)) ↔
      (rows ≤ i → i % rows ≠ j % rows) := by
  have hfirst (k : ℕ) : k < rows → k % rows = k := Nat.mod_eq_of_lt
  have hi := hfirst i
  have hj := hfirst j
  simp only [hasPoint, Bool.and_eq_true, decide_eq_true_eq]
  dsimp only [itemRect]
  constructor
  · intro h hle heq
    apply h (dialog.x + 40 * (nItems / 6 + 1 : ℕ) + 100) (dialog.y + 25 + 80 * (i % rows : ℕ))
    rw [if_neg (by omega), if_neg (by omega), ← heq]
    omega
  · rintro h px py ⟨hpi, hpj⟩
    split_ifs at hpi hpj <;> omega

theorem forall_rows_iff (hpos : 0 < rows) (n : ℕ) :
    (∀ i j, i < j → j < n → rows ≤ i → i % rows ≠ j % rows) ↔ n ≤ 2 * rows := by
  constructor
  · intro h
    by_contra hmore
    apply h rows (2 * rows) (by omega) (by omega) (Nat.le_refl _)
    rw [Nat.mod_self, Nat.mul_mod_left]
  · intro hn i j hij hj hi
    have hsecond (k : ℕ) (hk : rows ≤ k) (hkn : k < 2 * rows) : k % rows = k - rows := by
      rw [Nat.mod_eq_sub_mod hk]
      exact Nat.mod_eq_of_lt (by omega)
    rw [hsecond i hi (by omega), hsecond j (by omega) (by omega)]
    omega

end

theorem popupRight_iff (draw : ButtonState → Option String → FrameBuffer)
    (grHeight x y width height : ℤ) (nItems : ℕ) :
    PopupRight (oltkPopupAdd draw grHeight x y width height nItems).items ↔
      nItems ≤ 2 ∨ y + 25 + 80 * ((nItems - 1) / 2 : ℕ) < grHeight := by
  obtain ⟨rows, hrows⟩ := exists_columnRows grHeight (y + 25)
  have hrects := oltkPopupAdd_rects draw nItems x width height hrows
  have hpairs : PopupRight (oltkPopupAdd draw grHeight x y width height nItems).items ↔
      ∀ i j, i < j → j < nItems → rows ≤ i → i % rows ≠ j % rows := by
    rw [popupRight_iff_disjoint, ← List.pairwise_map (f := fun b : OltkButton => b.rect)
      (R := fun r s => ∀ px py, ¬ (hasPoint r px py = true ∧ hasPoint s px py = true)), hrects,
      List.pairwise_map, List.pairwise_iff_getElem]
    simp only [List.length_range, List.getElem_range]
    constructor
    · intro h i j hij hj
      exact (itemRect_common hij).mp (h i j (hij.trans hj) hj hij)
    · intro h i j _ hj hij
      exact (itemRect_common hij).mpr (h i j hij hj)
  rw [hpairs, forall_rows_iff hrows.pos]
  constructor
  · intro hn
    by_cases htwo : nItems ≤ 2
    · exact Or.inl htwo
    · exact Or.inr (hrows.fits _ (by omega) (by omega))
  · rintro (htwo | hfits)
    · have hpos := hrows.pos
      omega
    · have hfull := hrows.full
      omega

/-- On a screen of 640 rows the sixteen suites of the menu are disjoint, and a seventeenth item lies on
the ninth one. -/
theorem seventeen_overlap :
    ¬ PopupRight (oltkPopupAdd (fun _ _ _ _ => 0) 640 0 0 100 100 17).items := by
  intro h
  have hinside := h.inside 220 25
  exact absurd hinside (by decide)

end SystemTestSuite.Dm2
