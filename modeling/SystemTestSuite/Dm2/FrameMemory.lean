import SystemTestSuite.Dm2.Repaint
import SystemTestSuite.Library.Memory

namespace SystemTestSuite.Dm2

open Library

structure Gr where
  width : ℕ
  height : ℕ
  pitch : ℕ
  bytesPerPixel : ℕ
  bytes : bytesPerPixel = 1 ∨ bytesPerPixel = 2 ∨ bytesPerPixel = 4
  row : bytesPerPixel * width ≤ pitch
  width_lt : width < 2 ^ 31

namespace Gr

def pixelBytes (gr : Gr) (pixel : ℤ) : Bytes :=
  (List.range gr.bytesPerPixel).map fun k => UInt8.ofNat ((pixel % 2 ^ 32).toNat / 256 ^ k)

def putPixels (gr : Gr) (pixel : ℤ) (fb : Memory) (off : ℕ) : ℕ → Memory
  | 0 => fb
  | width + 1 =>
    putPixels gr pixel (fb.store off (gr.pixelBytes pixel)) (off + gr.bytesPerPixel) width

def hline (gr : Gr) (fb : Memory) (x y width pixel : ℤ) : Memory :=
  if y < 0 ∨ y ≥ gr.height ∨ x ≥ gr.width then fb
  else if x < 0 ∧ toUnsigned (x + width) ≤ 0 then fb
  else
    let width := if x < 0 then toUnsigned (width + x) else width
    let x := if x < 0 then 0 else x
    let width := if toUnsigned (x + width) ≥ gr.width then gr.width - x else width
    let off := (gr.pitch * y + gr.bytesPerPixel * x).toNat
    if pixel = 0 ∨ gr.bytesPerPixel = 1 then
      fb.store off (List.replicate (gr.bytesPerPixel * width.toNat) (UInt8.ofNat (pixel % 256).toNat))
    else gr.putPixels pixel fb off width.toNat

def fillRectangle (gr : Gr) (fb : Memory) (x y : ℤ) (width height : ℕ) (color : ℤ) : Memory :=
  (List.range height).foldl (fun fb (i : ℕ) => gr.hline fb x (y + i) width color) fb

def screen (gr : Gr) : Oltk := ⟨gr.width, gr.height, fun _ _ => 0, [], ⟨0, 0, 0, 0⟩⟩

def address (gr : Gr) (px py : ℕ) : ℕ := gr.pitch * py + gr.bytesPerPixel * px

def pixelAt (gr : Gr) (fb : Memory) (px py : ℕ) : Bytes := fb.slice (gr.address px py) gr.bytesPerPixel

def Beside (gr : Gr) (i : ℕ) : Prop :=
  ∀ px < gr.width, ∀ py < gr.height, i < gr.address px py ∨ gr.address px py + gr.bytesPerPixel ≤ i

def run (gr : Gr) (pixel : ℤ) (n : ℕ) : Bytes := (List.replicate n (gr.pixelBytes pixel)).flatten

variable {gr : Gr} {fb : Memory} {pixel : ℤ}

theorem pixelBytes_length (gr : Gr) (pixel : ℤ) : (gr.pixelBytes pixel).length = gr.bytesPerPixel := by
  simp [pixelBytes]

theorem run_length (gr : Gr) (pixel : ℤ) (n : ℕ) :
    (gr.run pixel n).length = n * gr.bytesPerPixel := by
  simp [run, pixelBytes_length]

theorem run_succ (gr : Gr) (pixel : ℤ) (n : ℕ) :
    gr.run pixel (n + 1) = gr.pixelBytes pixel ++ gr.run pixel n := by
  rw [run, List.replicate_succ, List.flatten_cons, run]

theorem putPixels_eq (gr : Gr) (pixel : ℤ) (fb : Memory) (off n : ℕ) :
    gr.putPixels pixel fb off n = fb.store off (gr.run pixel n) := by
  induction n generalizing fb off with
  | zero => exact (Memory.store_nil fb off).symm
  | succ n ih => rw [putPixels, ih, run_succ, Memory.store_append, pixelBytes_length]

theorem pixelBytes_plain (h : pixel = 0 ∨ gr.bytesPerPixel = 1) :
    gr.pixelBytes pixel = List.replicate gr.bytesPerPixel (UInt8.ofNat (pixel % 256).toNat) := by
  rcases h with rfl | hone
  · apply List.ext_getElem
    · simp [pixelBytes]
    · intro k hk _
      simp [pixelBytes]
  · rw [pixelBytes, hone]
    have hlow : UInt8.ofNat (pixel % 2 ^ 32).toNat = UInt8.ofNat (pixel % 256).toNat := by
      apply UInt8.toNat_inj.mp
      rw [UInt8.toNat_ofNat', UInt8.toNat_ofNat']
      omega
    simpa using hlow

theorem memset_eq (h : pixel = 0 ∨ gr.bytesPerPixel = 1) (n : ℕ) :
    List.replicate (gr.bytesPerPixel * n) (UInt8.ofNat (pixel % 256).toNat) = gr.run pixel n := by
  rw [run, pixelBytes_plain h, List.flatten_replicate_replicate, Nat.mul_comm]

theorem stored_run (gr : Gr) (fb : Memory) (pixel : ℤ) (off n : ℕ) :
    (if pixel = 0 ∨ gr.bytesPerPixel = 1 then
        fb.store off (List.replicate (gr.bytesPerPixel * n) (UInt8.ofNat (pixel % 256).toNat))
      else gr.putPixels pixel fb off n) = fb.store off (gr.run pixel n) := by
  split_ifs with h
  · rw [memset_eq h]
  · exact putPixels_eq gr pixel fb off n

theorem hline_eq (gr : Gr) (fb : Memory) (x y width pixel : ℤ) :
    gr.hline fb x y width pixel =
      if 0 ≤ y ∧ y < gr.height then
        fb.store (gr.pitch * y + gr.bytesPerPixel * (lineSpan gr.screen x width).1).toNat
          (gr.run pixel (lineSpan gr.screen x width).2.toNat)
      else fb := by
  have hnone (off : ℕ) : fb.store off (gr.run pixel (0 : ℤ).toNat) = fb := Memory.store_nil fb off
  have hscreen : (gr.screen.width : ℤ) = gr.width := rfl
  rw [hline, lineSpan]
  dsimp only
  rw [stored_run, hscreen]
  by_cases hy : 0 ≤ y ∧ y < gr.height
  · rw [if_pos hy]
    by_cases hx : x ≥ gr.width
    · rw [if_pos (Or.inr (Or.inr hx)), if_pos hx, hnone]
    · rw [if_neg (by omega), if_neg hx]
      by_cases hneg : x < 0
      · by_cases hleft : toUnsigned (x + width) ≤ 0
        · rw [if_pos ⟨hneg, hleft⟩, if_pos hneg, if_pos hleft, hnone]
        · simp only [hneg, hleft, and_false, if_false, if_true, Int.zero_add, Int.sub_zero]
      · simp only [hneg, false_and, if_false]
  · rw [if_pos (by omega), if_neg hy]

theorem address_lt {px py py' : ℕ} (hpx : px < gr.width) (hpy : py < py') (px' : ℕ) :
    gr.address px py + gr.bytesPerPixel ≤ gr.address px' py' := by
  have hcol : gr.bytesPerPixel * px + gr.bytesPerPixel ≤ gr.bytesPerPixel * gr.width := by
    rw [← Nat.mul_succ]
    exact Nat.mul_le_mul_left _ hpx
  have hrow : gr.pitch * py + gr.pitch ≤ gr.pitch * py' := by
    rw [← Nat.mul_succ]
    exact Nat.mul_le_mul_left _ hpy
  have hpitch := gr.row
  rw [address, address]
  omega

theorem pixelAt_store {l n y : ℕ} (hspan : l + n ≤ gr.width) (fb : Memory) (pixel : ℤ) {px : ℕ}
    (hpx : px < gr.width) (py : ℕ) :
    gr.pixelAt (fb.store (gr.address l y) (gr.run pixel n)) px py =
      if py = y ∧ l ≤ px ∧ px < l + n then gr.pixelBytes pixel else gr.pixelAt fb px py := by
  split_ifs with hin
  · obtain ⟨rfl, hl, hr⟩ := hin
    obtain ⟨j, rfl⟩ := Nat.exists_eq_add_of_le hl
    obtain ⟨k, rfl⟩ := Nat.exists_eq_add_of_lt (show j < n by omega)
    have hsplit : gr.run pixel (j + k + 1) = gr.run pixel j ++ (gr.pixelBytes pixel ++ gr.run pixel k) := by
      rw [run, Nat.add_assoc, List.replicate_add, List.flatten_append, ← run, ← run, run_succ]
    have haddress : gr.address (l + j) py = gr.address l py + (gr.run pixel j).length := by
      rw [run_length, address, address, Nat.mul_add, Nat.mul_comm j, Nat.add_assoc]
    rw [pixelAt, hsplit, haddress, ← pixelBytes_length gr pixel]
    exact Memory.slice_store_middle _ _ _ _ _
  · apply Memory.slice_congr
    intro i hi hi'
    have hlen := run_length gr pixel n
    rcases Nat.lt_trichotomy py y with hlt | rfl | hgt
    · exact Memory.store_before _ _ (Nat.lt_of_lt_of_le hi' (address_lt hpx hlt l))
    · have haddress (px : ℕ) : gr.address px py = gr.pitch * py + gr.bytesPerPixel * px := rfl
      have hpixel := haddress px
      have hstart := haddress l
      rcases Nat.lt_or_ge px l with hl | hl
      · have hcol : gr.bytesPerPixel * px + gr.bytesPerPixel ≤ gr.bytesPerPixel * l := by
          rw [← Nat.mul_succ]
          exact Nat.mul_le_mul_left _ hl
        exact Memory.store_before _ _ (by omega)
      · have hcol : gr.bytesPerPixel * (l + n) ≤ gr.bytesPerPixel * px :=
          Nat.mul_le_mul_left _ (by omega)
        rw [Nat.mul_add, Nat.mul_comm _ n] at hcol
        exact Memory.store_behind _ _ (by omega)
    · rcases Nat.eq_zero_or_pos n with rfl | hn
      · exact congrFun (Memory.store_nil fb _) i
      · have hend : gr.address l y + n * gr.bytesPerPixel =
            gr.address (l + n - 1) y + gr.bytesPerPixel := by
          obtain ⟨k, rfl⟩ := Nat.exists_eq_succ_of_ne_zero (Nat.ne_of_gt hn)
          rw [address, address, Nat.add_succ_sub_one, Nat.mul_add, Nat.succ_mul, Nat.mul_comm k]
          omega
        have hlast : l + n - 1 < gr.width := by omega
        have hrow := address_lt hlast hgt px
        exact Memory.store_behind _ _ (by omega)

theorem store_beside {l n y : ℕ} (hspan : l + n ≤ gr.width) (hy : y < gr.height) (fb : Memory)
    (pixel : ℤ) {i : ℕ} (hi : gr.Beside i) : fb.store (gr.address l y) (gr.run pixel n) i = fb i := by
  have hlen := run_length gr pixel n
  rcases Nat.lt_or_ge i (gr.address l y) with hlt | hge
  · exact Memory.store_before _ _ hlt
  · apply Memory.store_behind
    by_contra hlast
    have hpos : 0 < gr.bytesPerPixel := by
      rcases gr.bytes with h | h | h <;> rw [h] <;> decide
    -- the pixel of the run that the byte would be in
    obtain ⟨j, hj⟩ : ∃ j, j = (i - gr.address l y) / gr.bytesPerPixel := ⟨_, rfl⟩
    have hjn : j < n := by
      rw [hj]
      apply Nat.div_lt_of_lt_mul
      rw [Nat.mul_comm]
      omega
    have hdiv := Nat.div_add_mod (i - gr.address l y) gr.bytesPerPixel
    have hmod := Nat.mod_lt (i - gr.address l y) hpos
    rw [← hj] at hdiv
    have haddress : gr.address (l + j) y = gr.address l y + gr.bytesPerPixel * j := by
      rw [address, address, Nat.mul_add, Nat.add_assoc]
    have hcase := hi (l + j) (by omega) y hy
    omega

theorem lineSpan_row (gr : Gr) {x : ℤ} {width : ℕ} (hx : -2 ^ 31 ≤ x ∧ x < 2 ^ 31)
    (hwidth : width < 2 ^ 31) : ∃ l n : ℕ, lineSpan gr.screen x width = ((l : ℤ), (n : ℤ)) ∧
      l + n ≤ gr.width ∧ ∀ px < gr.width,
        l ≤ px ∧ px < l + n ↔ (x ≤ px ∧ (px : ℤ) < x + width) ∨ x + width < 0 := by
  have hscreen : (gr.screen.width : ℤ) = gr.width := rfl
  have hlt := gr.width_lt
  obtain ⟨l, hl⟩ : ∃ l, l = (lineSpan gr.screen x width).1 := ⟨_, rfl⟩
  obtain ⟨n, hn⟩ : ∃ n, n = (lineSpan gr.screen x width).2 := ⟨_, rfl⟩
  have hspan : 0 ≤ l ∧ 0 ≤ n ∧ l + n ≤ gr.width ∧ ∀ px : ℤ, 0 ≤ px → px < gr.width →
      (l ≤ px ∧ px < l + n ↔ (x ≤ px ∧ px < x + width) ∨ x + width < 0) := by
    unfold lineSpan at hl hn
    rw [hscreen] at hl hn
    split_ifs at hl hn with hout hneg hnone hclip hclip <;> simp only [toUnsigned] at * <;>
      refine ⟨by omega, by omega, by omega, fun px hpx hpx' => by omega⟩
  obtain ⟨hl0, hn0, hle, hcols⟩ := hspan
  obtain ⟨l', rfl⟩ := Int.eq_ofNat_of_zero_le hl0
  obtain ⟨n', rfl⟩ := Int.eq_ofNat_of_zero_le hn0
  refine ⟨l', n', Prod.ext hl.symm hn.symm, by omega, fun px hpx => ?_⟩
  have hcol := hcols px (by omega) (by omega)
  omega

structure Draws (gr : Gr) (changed : ℕ → ℕ → Prop) (color : ℤ) (fb fb' : Memory) : Prop where
  drawn : ∀ px < gr.width, ∀ py < gr.height, changed px py →
    gr.pixelAt fb' px py = gr.pixelBytes color
  kept : ∀ px < gr.width, ∀ py < gr.height, ¬ changed px py →
    gr.pixelAt fb' px py = gr.pixelAt fb px py
  beside : ∀ i, gr.Beside i → fb' i = fb i

variable {changed also : ℕ → ℕ → Prop} {color : ℤ} {fb' fb'' : Memory}

theorem Draws.congr (h : gr.Draws changed color fb fb')
    (hsame : ∀ px < gr.width, ∀ py < gr.height, changed px py ↔ also px py) :
    gr.Draws also color fb fb' :=
  ⟨fun px hpx py hpy hin => h.drawn px hpx py hpy ((hsame px hpx py hpy).mpr hin),
    fun px hpx py hpy hout => h.kept px hpx py hpy fun hin => hout ((hsame px hpx py hpy).mp hin),
    h.beside⟩

theorem Draws.trans (h : gr.Draws changed color fb fb') (h' : gr.Draws also color fb' fb'') :
    gr.Draws (fun px py => changed px py ∨ also px py) color fb fb'' where
  drawn px hpx py hpy hin := by
    by_cases hagain : also px py
    · exact h'.drawn px hpx py hpy hagain
    · rw [h'.kept px hpx py hpy hagain]
      exact h.drawn px hpx py hpy (hin.resolve_right hagain)
  kept px hpx py hpy hout := by
    rw [h'.kept px hpx py hpy fun hin => hout (Or.inr hin)]
    exact h.kept px hpx py hpy fun hin => hout (Or.inl hin)
  beside i hi := (h'.beside i hi).trans (h.beside i hi)

theorem exists_other (gr : Gr) (color : ℤ) :
    ∃ fb : Memory, ∀ px py, gr.pixelAt fb px py ≠ gr.pixelBytes color := by
  obtain ⟨n, hn⟩ : ∃ n, gr.bytesPerPixel = n + 1 := by
    rcases gr.bytes with h | h | h <;> exact ⟨_, h⟩
  have hlen := pixelBytes_length gr color
  rw [hn] at hlen
  obtain ⟨b, bs, hbytes⟩ := List.exists_cons_of_length_eq_add_one hlen
  refine ⟨fun _ => b + 1, fun px py heq => ?_⟩
  rw [pixelAt, hn, Memory.slice, hbytes] at heq
  have hhead := (List.cons.inj heq).1
  simp at hhead

theorem draws_iff {draw : Memory → Memory} (h : ∀ fb, gr.Draws changed color fb (draw fb)) :
    (∀ fb, gr.Draws also color fb (draw fb)) ↔
      ∀ px < gr.width, ∀ py < gr.height, changed px py ↔ also px py := by
  constructor
  · intro halso px hpx py hpy
    obtain ⟨fb, hother⟩ := exists_other gr color
    by_contra hdiffer
    by_cases hin : changed px py
    · have hout : ¬ also px py := fun hin' => hdiffer (iff_of_true hin hin')
      have hkept := (halso fb).kept px hpx py hpy hout
      rw [(h fb).drawn px hpx py hpy hin] at hkept
      exact hother px py hkept.symm
    · have hin' : also px py := by
        by_contra hout
        exact hdiffer (iff_of_false hin hout)
      have hkept := (h fb).kept px hpx py hpy hin
      rw [(halso fb).drawn px hpx py hpy hin'] at hkept
      exact hother px py hkept.symm
  · exact fun hsame fb => (h fb).congr hsame

/-- The columns that `hline` draws: also a whole row, for a line left of the screen. -/
def Columns (x : ℤ) (width : ℕ) (px : ℕ) : Prop := (x ≤ px ∧ (px : ℤ) < x + width) ∨ x + width < 0

theorem hline_draws (gr : Gr) (fb : Memory) {x : ℤ} (y : ℤ) {width : ℕ} (color : ℤ)
    (hx : -2 ^ 31 ≤ x ∧ x < 2 ^ 31) (hwidth : width < 2 ^ 31) :
    gr.Draws (fun px py => (py : ℤ) = y ∧ Columns x width px) color fb
      (gr.hline fb x y width color) := by
  obtain ⟨l, n, hspan, hrow, hcols⟩ := lineSpan_row gr hx hwidth
  rw [hline_eq, hspan]
  by_cases hy : 0 ≤ y ∧ y < gr.height
  · obtain ⟨hlow, hhigh⟩ := hy
    obtain ⟨row, rfl⟩ := Int.eq_ofNat_of_zero_le hlow
    have haddress : ((gr.pitch : ℤ) * (row : ℤ) + gr.bytesPerPixel * (l : ℤ)).toNat =
        gr.address l row := by
      rw [address]
      omega
    rw [if_pos ⟨hlow, hhigh⟩, Int.toNat_natCast]
    dsimp only
    rw [haddress]
    have hrowlt : row < gr.height := by omega
    constructor
    · rintro px hpx py - ⟨hpy, hin⟩
      rw [pixelAt_store hrow fb color hpx, if_pos ⟨by omega, (hcols px hpx).mpr hin⟩]
    · intro px hpx py _ hout
      rw [pixelAt_store hrow fb color hpx, if_neg]
      rintro ⟨rfl, hin⟩
      exact hout ⟨rfl, (hcols px hpx).mp hin⟩
    · exact fun i hi => store_beside hrow hrowlt fb color hi
  · rw [if_neg hy]
    refine ⟨fun px _ py hpy hin => ?_, fun _ _ _ _ _ => rfl, fun _ _ => rfl⟩
    have hrow' := hin.1
    exact absurd hy (by omega)

theorem fillRectangle_draws (gr : Gr) (fb : Memory) {x : ℤ} (y : ℤ) {width : ℕ} (height : ℕ) (color : ℤ)
    (hx : -2 ^ 31 ≤ x ∧ x < 2 ^ 31) (hwidth : width < 2 ^ 31) :
    gr.Draws (fun px py => (y ≤ py ∧ (py : ℤ) < y + height) ∧ Columns x width px) color fb
      (gr.fillRectangle fb x y width height color) := by
  induction height with
  | zero => exact ⟨fun _ _ _ _ hin => absurd hin.1 (by omega), fun _ _ _ _ _ => rfl, fun _ _ => rfl⟩
  | succ n ih =>
    rw [fillRectangle, List.range_succ, List.foldl_append, List.foldl_cons, List.foldl_nil,
      ← fillRectangle]
    apply (ih.trans (hline_draws gr _ (y + n) color hx hwidth)).congr
    intro px _ py _
    rw [← or_and_right]
    apply and_congr_left
    intro _
    omega

def DrawsSpan (gr : Gr) (x y : ℤ) (width : ℕ) (color : ℤ) : Prop :=
  ∀ fb, gr.Draws (fun px py => (py : ℤ) = y ∧ max x 0 ≤ px ∧ (px : ℤ) < min (x + width) gr.width)
    color fb (gr.hline fb x y width color)

def DrawsRectangle (gr : Gr) (x y : ℤ) (width height : ℕ) (color : ℤ) : Prop :=
  ∀ fb, gr.Draws (fun px py => (x ≤ px ∧ (px : ℤ) < x + width) ∧ y ≤ py ∧ (py : ℤ) < y + height)
    color fb (gr.fillRectangle fb x y width height color)

theorem drawn_iff (gr : Gr) (x y : ℤ) (width height : ℕ) (color : ℤ) (hx : -2 ^ 31 ≤ x ∧ x < 2 ^ 31)
    (hwidth : width < 2 ^ 31) :
    (gr.DrawsSpan x y width color ↔ (0 ≤ y ∧ y < gr.height → 0 < gr.width → 0 ≤ x + width)) ∧
      (gr.DrawsRectangle x y width height color ↔
        (max y 0 < min (y + height) gr.height → 0 < gr.width → 0 ≤ x + width)) := by
  constructor
  · rw [DrawsSpan, draws_iff fun fb => hline_draws gr fb y color hx hwidth]
    constructor
    · intro hsame hy hpos
      have hfirst := hsame 0 hpos y.toNat (by omega)
      rw [Columns] at hfirst
      omega
    · intro hright px hpx py hpy
      rw [Columns]
      omega
  · rw [DrawsRectangle, draws_iff fun fb => fillRectangle_draws gr fb y height color hx hwidth]
    constructor
    · intro hsame hy hpos
      have hfirst := hsame 0 hpos (max y 0).toNat (by omega)
      rw [Columns] at hfirst
      omega
    · intro hright px hpx py hpy
      rw [Columns]
      omega

def smallGr : Gr where
  width := 4
  height := 2
  pitch := 8
  bytesPerPixel := 2
  bytes := Or.inr (Or.inl rfl)
  row := Nat.le_refl 8
  width_lt := by decide

theorem drawn_iff_small : smallGr.DrawsSpan (-3) 0 5 7 :=
  (drawn_iff smallGr (-3) 0 5 1 7 (by decide) (by decide)).1.mpr fun _ _ => by decide

/-- A line of two pixels left of the screen, and a rectangle of them. -/
theorem row_overdrawn : ¬ smallGr.DrawsSpan (-3) 0 2 7 ∧ ¬ smallGr.DrawsRectangle (-3) 0 2 1 7 := by
  have hdrawn : smallGr.pixelAt (smallGr.hline Memory.zero (-3) 0 (2 : ℕ) 7) 0 0 = [7, 0] := by
    decide +kernel
  constructor
  · intro h
    have hkept := (h Memory.zero).kept 0 (by decide) 0 (by decide) (by decide)
    rw [hdrawn] at hkept
    exact absurd hkept (by decide)
  · intro h
    have hkept := (h Memory.zero).kept 0 (by decide) 0 (by decide) (by decide)
    have hfill : smallGr.fillRectangle Memory.zero (-3) 0 2 1 7 =
        smallGr.hline Memory.zero (-3) 0 (2 : ℕ) 7 := rfl
    rw [hfill, hdrawn] at hkept
    exact absurd hkept (by decide)

end Gr

end SystemTestSuite.Dm2
