import SystemTestSuite.Dm2.Repaint
import Mathlib.Data.Set.Card
import Mathlib.Tactic.Linarith
import Mathlib.Tactic.Ring
import Mathlib.Tactic.Zify

namespace SystemTestSuite.Dm2

def sign (z : ℤ) : ℤ := if z ≥ 0 then 1 else -1

def signedAbs (z : ℤ) : ℤ := z * sign z

def oltkDrawPoint (oltk : Oltk) (fb : FrameBuffer) (x y color : ℤ) : FrameBuffer :=
  hline oltk fb x y 1 color

/-- The two loops, with `a` along the longer axis and `b` along the other one; `n` turns are left. -/
def lineLoop (draw : FrameBuffer → ℤ → ℤ → FrameBuffer) (minor major step : ℤ) :
    ℕ → FrameBuffer → ℤ → ℤ → ℤ → FrameBuffer
  | 0, fb, _, _, _ => fb
  | n + 1, fb, a, b, tmp =>
    let fb := draw fb a b
    let tmp := tmp + minor
    if tmp > major then lineLoop draw minor major step n fb (a + 1) (b + step) (tmp - major)
    else lineLoop draw minor major step n fb (a + 1) b tmp

def oltkDrawLine (oltk : Oltk) (fb : FrameBuffer) (x1 y1 x2 y2 color : ℤ) : FrameBuffer :=
  let dx := x2 - x1
  let dy := y2 - y1
  let step := sign dx * sign dy
  let dx := signedAbs dx
  let dy := signedAbs dy
  if dy = 0 then hline oltk fb (if x1 < x2 then x1 else x2) y1 (dx + 1) color
  else if dx < dy then
    let p : ℤ × ℤ := if y1 > y2 then (x2, y2) else (x1, y1)
    let q : ℤ × ℤ := if y1 > y2 then (x1, y1) else (x2, y2)
    lineLoop (fun fb y x => oltkDrawPoint oltk fb x y color) dx dy step (q.2 - p.2 + 1).toNat fb p.2 p.1 0
  else
    let p : ℤ × ℤ := if x1 > x2 then (x2, y2) else (x1, y1)
    let q : ℤ × ℤ := if x1 > x2 then (x1, y1) else (x2, y2)
    lineLoop (fun fb x y => oltkDrawPoint oltk fb x y color) dy dx step (q.1 - p.1 + 1).toNat fb p.1 p.2 0

def crossed (minor major k : ℕ) : ℕ := (k * minor - 1) / major

variable {minor major k : ℕ}

theorem crossed_zero (minor major : ℕ) : crossed minor major 0 = 0 := by
  rw [crossed, Nat.zero_mul, Nat.zero_sub, Nat.zero_div]

theorem crossed_still (major k : ℕ) : crossed 0 major k = 0 := by
  rw [crossed, Nat.mul_zero, Nat.zero_sub, Nat.zero_div]

theorem crossed_rest (minor : ℕ) {major : ℕ} (hmajor : 0 < major) (k : ℕ) :
    crossed minor major k * major ≤ k * minor ∧ k * minor ≤ crossed minor major k * major + major ∧
      (0 < k * minor → crossed minor major k * major < k * minor) := by
  have hdiv := Nat.div_add_mod (k * minor - 1) major
  have hmod := Nat.mod_lt (k * minor - 1) hmajor
  rw [Nat.mul_comm] at hdiv
  rw [crossed]
  omega

theorem crossed_unique (hmajor : 0 < major) {c : ℕ} (hlow : c * major < k * minor ∨ c = 0)
    (hhigh : k * minor ≤ c * major + major) : crossed minor major k = c := by
  rw [crossed]
  rcases hlow with hlow | rfl
  · apply Nat.div_eq_of_lt_le
    · omega
    · rw [Nat.succ_mul]
      omega
  · apply Nat.div_eq_of_lt
    omega

theorem crossed_succ (hmajor : 0 < major) (hminor : minor ≤ major) (k : ℕ) :
    crossed minor major (k + 1) = crossed minor major k +
      if crossed minor major k * major + major < k * minor + minor then 1 else 0 := by
  obtain ⟨hlow, hhigh, hpos⟩ := crossed_rest minor hmajor k
  have hnext : (k + 1) * minor = k * minor + minor := Nat.succ_mul k minor
  split_ifs with hstep
  · apply crossed_unique hmajor
    · left
      rw [Nat.succ_mul, hnext]
      exact hstep
    · rw [hnext, Nat.succ_mul]
      omega
  · apply crossed_unique hmajor
    · rw [hnext, Nat.add_zero]
      rcases Nat.eq_zero_or_pos (k * minor) with hzero | hsome
      · rcases Nat.eq_zero_or_pos minor with rfl | hm
        · exact Or.inr (crossed_still major k)
        · rw [crossed, hzero, Nat.zero_sub, Nat.zero_div]
          exact Or.inr rfl
      · left
        have hlt := hpos hsome
        omega
    · rw [hnext, Nat.add_zero]
      omega

theorem crossed_end (hmajor : 0 < major) (hminor : 0 < minor) :
    crossed minor major major + 1 = minor := by
  have hend : crossed minor major major = minor - 1 := by
    apply crossed_unique hmajor
    · left
      rw [Nat.sub_mul, Nat.one_mul, Nat.mul_comm major]
      have hle := Nat.mul_le_mul_right major hminor
      omega
    · rw [Nat.sub_mul, Nat.one_mul, Nat.mul_comm major]
      omega
  omega

theorem crossed_mono (hmajor : 0 < major) (hminor : minor ≤ major) {i j : ℕ} (h : i ≤ j) :
    crossed minor major i ≤ crossed minor major j := by
  induction h with
  | refl => exact Nat.le_refl _
  | @step j _ ih =>
    rw [crossed_succ hmajor hminor]
    omega

theorem crossed_le (hmajor : 0 < major) (hminor : minor ≤ major) (hk : k ≤ major) :
    crossed minor major k ≤ minor := by
  rcases Nat.eq_zero_or_pos minor with rfl | hpos
  · exact Nat.le_of_eq (crossed_still major k)
  · have hmono := crossed_mono hmajor hminor hk
    have hend := crossed_end hmajor hpos
    omega

structure PaintedBy (hits : ℕ → Prop) (first n : ℕ) (color old new : ℤ) : Prop where
  hit : ∀ k, first ≤ k → k < first + n → hits k → new = color
  missed : (∀ k, first ≤ k → k < first + n → ¬ hits k) → new = old

theorem lineLoop_at (draw : FrameBuffer → ℤ → ℤ → FrameBuffer) (a b step color px py : ℤ)
    (hits : ℕ → Prop) (hmajor : 0 < major) (hminor : minor ≤ major) (hdraw : ∀ fb k,
      k ≤ major → PaintedBy hits k 1 color (fb px py) (draw fb (a + k) (b + step * crossed minor major k) px py))
    (n : ℕ) (fb : FrameBuffer) (k : ℕ) (hn : k + n ≤ major + 1) :
    PaintedBy hits k n color (fb px py) (lineLoop draw minor major step n fb (a + k)
      (b + step * crossed minor major k) (k * minor - crossed minor major k * major) px py) := by
  induction n generalizing fb k with
  | zero => exact ⟨fun j hj hj' => absurd hj' (by omega), fun _ => rfl⟩
  | succ n ih =>
    obtain ⟨hhit, hmissed⟩ := hdraw fb k (by omega)
    have hrest := ih (draw fb (a + k) (b + step * crossed minor major k)) (k + 1) (by omega)
    have hnext := crossed_succ hmajor hminor k
    have hloop : lineLoop draw minor major step (n + 1) fb (a + k) (b + step * crossed minor major k)
        (k * minor - crossed minor major k * major) =
          lineLoop draw minor major step n (draw fb (a + k) (b + step * crossed minor major k))
            (a + (k + 1 : ℕ)) (b + step * crossed minor major (k + 1))
              ((k + 1 : ℕ) * minor - crossed minor major (k + 1) * major) := by
      rw [lineLoop, hnext]
      by_cases hstep : crossed minor major k * major + major < k * minor + minor
      · rw [if_pos hstep, if_pos (by zify at hstep; linarith only [hstep])]
        push_cast
        congr 1 <;> ring
      · rw [if_neg hstep, if_neg (by zify at hstep; linarith only [hstep])]
        push_cast
        congr 1 <;> ring
    rw [hloop]
    constructor
    · intro j hj hj' hit
      rcases Nat.eq_or_lt_of_le hj with rfl | hlt
      · by_cases hagain : ∃ i, k + 1 ≤ i ∧ i < k + 1 + n ∧ hits i
        · obtain ⟨i, hi, hi', hiti⟩ := hagain
          exact hrest.hit i hi hi' hiti
        · rw [hrest.missed fun i hi hi' hiti => hagain ⟨i, hi, hi', hiti⟩]
          exact hhit k (Nat.le_refl k) (Nat.lt_succ_self k) hit
      · exact hrest.hit j hlt (by omega) hit
    · intro hnone
      rw [hrest.missed fun j hj hj' => hnone j (by omega) (by omega)]
      exact hmissed fun j hj hj' => hnone j hj (by omega)

structure OnScreen (oltk : Oltk) (x y : ℤ) : Prop where
  x : 0 ≤ x ∧ x < oltk.width
  y : 0 ≤ y ∧ y < oltk.height
  screen : (oltk.width : ℤ) < 2 ^ 31

variable {oltk : Oltk} {fb : FrameBuffer} {x y x1 y1 x2 y2 color px py : ℤ}

theorem signedAbs_eq (z : ℤ) : signedAbs z = z.natAbs := by
  rw [signedAbs, sign]
  split_ifs <;> omega

theorem sign_eq (z : ℤ) : sign z = 1 ∧ 0 ≤ z ∨ sign z = -1 ∧ z < 0 := by
  rw [sign]
  split_ifs <;> omega

theorem sign_back {z w : ℤ} (h : w ≠ z) : sign (z - w) = -sign (w - z) := by
  rcases sign_eq (z - w) with ⟨hz, hz'⟩ | ⟨hz, hz'⟩ <;> rcases sign_eq (w - z) with ⟨hw, hw'⟩ | ⟨hw, hw'⟩ <;>
    rw [hz, hw] <;> omega

theorem oltkDrawPoint_at (h : OnScreen oltk x y) (fb : FrameBuffer) (color px py : ℤ) :
    oltkDrawPoint oltk fb x y color px py = if (x, y) = (px, py) then color else fb px py := by
  obtain ⟨hx, hy, hscreen⟩ := h
  have hspan : lineSpan oltk x 1 = (x, 1) := by
    rw [lineSpan, if_neg (by omega), if_neg (by omega), toUnsigned, Int.emod_eq_of_lt (by omega) (by omega)]
    split_ifs
    · rw [Prod.mk.injEq]
      omega
    · rfl
  rw [oltkDrawPoint, hline_at, hspan]
  dsimp only
  congr 1
  rw [Prod.mk.injEq]
  apply propext
  constructor
  · rintro ⟨hpy, -, hl, hr⟩
    omega
  · rintro ⟨rfl, rfl⟩
    omega

theorem paintedBy_point (h : OnScreen oltk x y) (point : ℕ → ℤ × ℤ) {k : ℕ} (hpoint : point k = (x, y))
    (fb : FrameBuffer) (color px py : ℤ) :
    PaintedBy (fun k => point k = (px, py)) k 1 color (fb px py)
      (oltkDrawPoint oltk fb x y color px py) := by
  rw [oltkDrawPoint_at h]
  constructor
  · intro j hj hj' hit
    obtain rfl : k = j := by omega
    rw [← hpoint, if_pos hit]
  · intro hnone
    rw [← hpoint, if_neg (hnone k (Nat.le_refl k) (Nat.lt_succ_self k))]

theorem hline_painted (hleft : OnScreen oltk x y) {n : ℕ} (hright : x + n < oltk.width) (fb : FrameBuffer)
    (color px py : ℤ) :
    PaintedBy (fun k => (x + (k : ℤ), y) = (px, py)) 0 (n + 1) color (fb px py)
      (hline oltk fb x y (n + 1) color px py) := by
  obtain ⟨hx, hy, hscreen⟩ := hleft
  have hspan : lineSpan oltk x (n + 1) = (x, (n : ℤ) + 1) := by
    rw [lineSpan, if_neg (by omega), if_neg (by omega), toUnsigned, Int.emod_eq_of_lt (by omega) (by omega)]
    split_ifs
    · rw [Prod.mk.injEq]
      omega
    · rfl
  rw [hline_at, hspan]
  constructor
  · intro k _ hk hit
    obtain ⟨hpx, hpy⟩ := Prod.mk.inj hit
    exact if_pos (by dsimp only; omega)
  · intro hnone
    apply if_neg
    rintro ⟨hpy, -, hl, hr⟩
    dsimp only at hl hr
    exact hnone (px - x).toNat (Nat.zero_le _) (by omega) (Prod.ext (by dsimp only; omega) hpy.symm)

theorem OnScreen.between {x' y' : ℤ} (h : OnScreen oltk x y) (h' : OnScreen oltk x' y') {px py : ℤ}
    (hpx : min x x' ≤ px ∧ px ≤ max x x') (hpy : min y y' ≤ py ∧ py ≤ max y y') : OnScreen oltk px py := by
  obtain ⟨hx, hy, hscreen⟩ := h
  obtain ⟨hx', hy', -⟩ := h'
  exact ⟨by omega, by omega, hscreen⟩

theorem step_between {step z : ℤ} (hstep : step = 1 ∨ step = -1) {c n : ℕ} (hc : c ≤ n) :
    min z (z + step * n) ≤ z + step * c ∧ z + step * c ≤ max z (z + step * n) := by
  rcases hstep with rfl | rfl <;> omega

theorem slanted_painted (place : ℤ → ℤ → ℤ × ℤ) {a b step : ℤ} (hmajor : 0 < major)
    (hminor : minor ≤ major) (hon : ∀ k ≤ major,
      OnScreen oltk (place (a + k) (b + step * crossed minor major k)).1
        (place (a + k) (b + step * crossed minor major k)).2)
    (fb : FrameBuffer) (color px py : ℤ) :
    PaintedBy (fun k => place (a + (k : ℤ)) (b + step * crossed minor major k) = (px, py)) 0 (major + 1)
      color (fb px py) (lineLoop (fun fb a b => oltkDrawPoint oltk fb (place a b).1 (place a b).2 color)
        minor major step (major + 1) fb a b 0 px py) := by
  have hloop := lineLoop_at (fun fb a b => oltkDrawPoint oltk fb (place a b).1 (place a b).2 color)
    a b step color px py (fun k => place (a + (k : ℤ)) (b + step * crossed minor major k) = (px, py))
    hmajor hminor ?_ (major + 1) fb 0 (Nat.le_of_eq (Nat.zero_add _))
  · simpa [crossed_zero] using hloop
  · intro fb k hk
    apply paintedBy_point (hon k hk) (fun k => place (a + (k : ℤ)) (b + step * crossed minor major k))
    rfl

theorem steep_painted {dx dy : ℕ} {step : ℤ} (hstart : OnScreen oltk x y)
    (hend : OnScreen oltk (x + step * dx) (y + dy)) (hstep : step = 1 ∨ step = -1) (hless : dx ≤ dy)
    (hpos : 0 < dy) (fb : FrameBuffer) (color px py : ℤ) :
    PaintedBy (fun k => (x + step * crossed dx dy k, y + (k : ℤ)) = (px, py)) 0 (dy + 1) color (fb px py)
      (lineLoop (fun fb y x => oltkDrawPoint oltk fb x y color) dx dy step (dy + 1) fb y x 0 px py) := by
  apply slanted_painted (fun y x => (x, y)) hpos hless
  intro k hk
  exact hstart.between hend (step_between hstep (crossed_le hpos hless hk)) (by omega)

theorem shallow_painted {dx dy : ℕ} {step : ℤ} (hstart : OnScreen oltk x y)
    (hend : OnScreen oltk (x + dx) (y + step * dy)) (hstep : step = 1 ∨ step = -1) (hless : dy ≤ dx)
    (hpos : 0 < dx) (fb : FrameBuffer) (color px py : ℤ) :
    PaintedBy (fun k => (x + (k : ℤ), y + step * crossed dy dx k) = (px, py)) 0 (dx + 1) color (fb px py)
      (lineLoop (fun fb x y => oltkDrawPoint oltk fb x y color) dy dx step (dx + 1) fb x y 0 px py) := by
  apply slanted_painted (fun x y => (x, y)) hpos hless
  intro k hk
  exact hstart.between hend (by omega) (step_between hstep (crossed_le hpos hless hk))

def linePoint (x1 y1 x2 y2 : ℤ) (k : ℕ) : ℤ × ℤ :=
  let dx := (x2 - x1).natAbs
  let dy := (y2 - y1).natAbs
  let step := sign (x2 - x1) * sign (y2 - y1)
  if dy = 0 then ((if x1 < x2 then x1 else x2) + (k : ℤ), y1)
  else if dx < dy then
    ((if y1 > y2 then x2 else x1) + step * crossed dx dy k, (if y1 > y2 then y2 else y1) + (k : ℤ))
  else
    ((if x1 > x2 then x2 else x1) + (k : ℤ), (if x1 > x2 then y2 else y1) + step * crossed dy dx k)

def longer (x1 y1 x2 y2 : ℤ) : ℕ := max (x2 - x1).natAbs (y2 - y1).natAbs

theorem sign_step (z w : ℤ) : sign z * sign w = 1 ∨ sign z * sign w = -1 := by
  rcases sign_eq z with ⟨hz, -⟩ | ⟨hz, -⟩ <;> rcases sign_eq w with ⟨hw, -⟩ | ⟨hw, -⟩ <;>
    rw [hz, hw] <;> decide

theorem step_across (z w : ℤ) :
    (0 ≤ z → sign z * sign w * w.natAbs = w) ∧ (z < 0 → sign z * sign w * w.natAbs = -w) := by
  rcases sign_eq z with ⟨hz, hz'⟩ | ⟨hz, hz'⟩ <;> rcases sign_eq w with ⟨hw, hw'⟩ | ⟨hw, hw'⟩ <;>
    rw [hz, hw] <;> constructor <;> intro h <;> omega

theorem step_short {step z : ℤ} (hstep : step = 1 ∨ step = -1) {c n : ℕ} (hc : c + 1 = n) :
    z + step * c ≠ z + step * n := by
  rcases hstep with rfl | rfl <;> omega

theorem far_end (a1 a2 b1 b2 : ℤ) :
    (a1 ≤ a2 → (a2 - a1 + 1).toNat = (a2 - a1).natAbs + 1 ∧ a1 + (a2 - a1).natAbs = a2 ∧
        b1 + sign (a2 - a1) * sign (b2 - b1) * (b2 - b1).natAbs = b2) ∧
      (a2 < a1 → (a1 - a2 + 1).toNat = (a2 - a1).natAbs + 1 ∧ a2 + (a2 - a1).natAbs = a1 ∧
        b2 + sign (a2 - a1) * sign (b2 - b1) * (b2 - b1).natAbs = b1) := by
  obtain ⟨hup, hdown⟩ := step_across (a2 - a1) (b2 - b1)
  constructor
  · intro hle
    rw [hup (by omega)]
    omega
  · intro hlt
    rw [hdown (by omega)]
    omega

theorem horizontal_painted (h1 : OnScreen oltk x1 y1) (h2 : OnScreen oltk x2 y2) (fb : FrameBuffer)
    (color px py : ℤ) :
    PaintedBy (fun k => ((if x1 < x2 then x1 else x2) + (k : ℤ), y1) = (px, py)) 0 ((x2 - x1).natAbs + 1)
      color (fb px py)
      (hline oltk fb (if x1 < x2 then x1 else x2) y1 ((x2 - x1).natAbs + 1) color px py) := by
  have hright := h2.x
  have hleft := h1.x
  split_ifs with hlt
  · exact hline_painted h1 (by omega) fb color px py
  · have hstart : OnScreen oltk x2 y1 := h1.between h2 (by omega) (by omega)
    exact hline_painted hstart (by omega) fb color px py

theorem oltkDrawLine_at (h1 : OnScreen oltk x1 y1) (h2 : OnScreen oltk x2 y2) (fb : FrameBuffer)
    (color px py : ℤ) :
    PaintedBy (fun k => linePoint x1 y1 x2 y2 k = (px, py)) 0 (longer x1 y1 x2 y2 + 1) color (fb px py)
      (oltkDrawLine oltk fb x1 y1 x2 y2 color px py) := by
  have hstep := sign_step (x2 - x1) (y2 - y1)
  have hsteep := far_end y1 y2 x1 x2
  have hshallow := far_end x1 x2 y1 y2
  rw [mul_comm (sign (y2 - y1))] at hsteep
  generalize hs : sign (x2 - x1) * sign (y2 - y1) = step at hstep hsteep hshallow
  generalize hdx : (x2 - x1).natAbs = dx at hsteep hshallow
  generalize hdy : (y2 - y1).natAbs = dy at hsteep hshallow
  simp only [oltkDrawLine, linePoint, longer, signedAbs_eq, hs, hdx, hdy, Int.natCast_eq_zero, Int.ofNat_lt]
  by_cases hzero : dy = 0
  · rw [hzero, Nat.max_zero, ← hdx]
    exact horizontal_painted h1 h2 fb color px py
  · have hpos : 0 < dy := Nat.pos_of_ne_zero hzero
    simp only [hzero, if_false]
    by_cases hlt : dx < dy
    · rw [Nat.max_eq_right hlt.le]
      simp only [hlt, if_true]
      by_cases hswap : y1 > y2
      · obtain ⟨hcount, hy, hx⟩ := hsteep.2 hswap
        have hend : OnScreen oltk (x2 + step * dx) (y2 + dy) := by rwa [hx, hy]
        simp only [hswap, if_true, hcount]
        exact steep_painted h2 hend hstep hlt.le hpos fb color px py
      · obtain ⟨hcount, hy, hx⟩ := hsteep.1 (not_lt.mp hswap)
        have hend : OnScreen oltk (x1 + step * dx) (y1 + dy) := by rwa [hx, hy]
        simp only [hswap, if_false, hcount]
        exact steep_painted h1 hend hstep hlt.le hpos fb color px py
    · have hle : dy ≤ dx := not_lt.mp hlt
      rw [Nat.max_eq_left hle]
      simp only [hlt, if_false]
      by_cases hswap : x1 > x2
      · obtain ⟨hcount, hx, hy⟩ := hshallow.2 hswap
        have hend : OnScreen oltk (x2 + dx) (y2 + step * dy) := by rwa [hx, hy]
        simp only [hswap, if_true, hcount]
        exact shallow_painted h2 hend hstep hle (hpos.trans_le hle) fb color px py
      · obtain ⟨hcount, hx, hy⟩ := hshallow.1 (not_lt.mp hswap)
        have hend : OnScreen oltk (x1 + dx) (y1 + step * dy) := by rwa [hx, hy]
        simp only [hswap, if_false, hcount]
        exact shallow_painted h1 hend hstep hle (hpos.trans_le hle) fb color px py

def painted (oltk : Oltk) (x1 y1 x2 y2 : ℤ) : Set (ℤ × ℤ) :=
  {p | oltkDrawLine oltk (fun _ _ => 0) x1 y1 x2 y2 1 p.1 p.2 = 1}

def along (x1 y1 x2 y2 : ℤ) (p : ℤ × ℤ) : ℤ := if (x2 - x1).natAbs < (y2 - y1).natAbs then p.2 else p.1

def across (x1 y1 x2 y2 : ℤ) (p : ℤ × ℤ) : ℤ := if (x2 - x1).natAbs < (y2 - y1).natAbs then p.1 else p.2

/-- One pixel for each step of the longer axis, next to the one before, and both end points among
them, also when the line is drawn from the other end. -/
structure LineRight (oltk : Oltk) (x1 y1 x2 y2 : ℤ) : Prop where
  count : (painted oltk x1 y1 x2 y2).ncard = longer x1 y1 x2 y2 + 1
  path : ∃ point : ℕ → ℤ × ℤ,
    (∀ p, p ∈ painted oltk x1 y1 x2 y2 ↔ ∃ k ≤ longer x1 y1 x2 y2, point k = p) ∧
      ∀ k < longer x1 y1 x2 y2,
        along x1 y1 x2 y2 (point (k + 1)) = along x1 y1 x2 y2 (point k) + 1 ∧
          |across x1 y1 x2 y2 (point (k + 1)) - across x1 y1 x2 y2 (point k)| ≤ 1
  ends : (x1, y1) ∈ painted oltk x1 y1 x2 y2 ∧ (x2, y2) ∈ painted oltk x1 y1 x2 y2
  reversed : (x1, y1) ∈ painted oltk x2 y2 x1 y1 ∧ (x2, y2) ∈ painted oltk x2 y2 x1 y1

theorem mem_painted (h1 : OnScreen oltk x1 y1) (h2 : OnScreen oltk x2 y2) (p : ℤ × ℤ) :
    p ∈ painted oltk x1 y1 x2 y2 ↔ ∃ k ≤ longer x1 y1 x2 y2, linePoint x1 y1 x2 y2 k = p := by
  obtain ⟨hhit, hmissed⟩ := oltkDrawLine_at h1 h2 (fun _ _ => 0) 1 p.1 p.2
  constructor
  · intro hp
    by_contra hnone
    have hzero := hmissed fun k _ hk hit => hnone ⟨k, by omega, hit⟩
    rw [painted, Set.mem_ofPred_eq, hzero] at hp
    cases hp
  · rintro ⟨k, hk, hit⟩
    exact hhit k (Nat.zero_le k) (by omega) hit

theorem linePoint_step (x1 y1 x2 y2 : ℤ) (k : ℕ) :
    along x1 y1 x2 y2 (linePoint x1 y1 x2 y2 (k + 1)) = along x1 y1 x2 y2 (linePoint x1 y1 x2 y2 k) + 1 ∧
      |across x1 y1 x2 y2 (linePoint x1 y1 x2 y2 (k + 1)) -
        across x1 y1 x2 y2 (linePoint x1 y1 x2 y2 k)| ≤ 1 := by
  have hstep := sign_step (x2 - x1) (y2 - y1)
  obtain ⟨step, hs⟩ : ∃ step, step = sign (x2 - x1) * sign (y2 - y1) := ⟨_, rfl⟩
  obtain ⟨dx, hdx⟩ : ∃ dx, dx = (x2 - x1).natAbs := ⟨_, rfl⟩
  obtain ⟨dy, hdy⟩ : ∃ dy, dy = (y2 - y1).natAbs := ⟨_, rfl⟩
  rw [← hs] at hstep
  rw [abs_le]
  simp only [along, across, linePoint, ← hs, ← hdx, ← hdy]
  by_cases hzero : dy = 0
  · simp only [hzero, if_true, Nat.not_lt_zero, if_false]
    omega
  · simp only [hzero, if_false]
    by_cases hless : dx < dy
    · have hnext := crossed_succ (by omega : 0 < dy) (by omega : dx ≤ dy) k
      simp only [hless, if_true, hnext]
      rcases hstep with rfl | rfl <;> split_ifs <;> omega
    · have hnext := crossed_succ (by omega : 0 < dx) (by omega : dy ≤ dx) k
      simp only [hless, if_false, hnext]
      rcases hstep with rfl | rfl <;> split_ifs <;> omega

theorem linePoint_reversed (x1 y1 x2 y2 : ℤ) (k : ℕ) : linePoint x2 y2 x1 y1 k = linePoint x1 y1 x2 y2 k := by
  have hback (z w : ℤ) : (z - w).natAbs = (w - z).natAbs := by omega
  obtain ⟨dx, hdx⟩ : ∃ dx, dx = (x2 - x1).natAbs := ⟨_, rfl⟩
  obtain ⟨dy, hdy⟩ : ∃ dy, dy = (y2 - y1).natAbs := ⟨_, rfl⟩
  simp only [linePoint, hback x1, hback y1, ← hdx, ← hdy]
  by_cases hzero : dy = 0
  · simp only [hzero, if_true]
    split_ifs <;> rw [Prod.mk.injEq] <;> omega
  · have hnear : dx = 0 ∨ sign (x1 - x2) * sign (y1 - y2) = sign (x2 - x1) * sign (y2 - y1) := by
      by_cases hnone : dx = 0
      · exact Or.inl hnone
      · refine Or.inr ?_
        have hbackx : sign (x1 - x2) = -sign (x2 - x1) := sign_back (by omega)
        have hbacky : sign (y1 - y2) = -sign (y2 - y1) := sign_back (by omega)
        rw [hbackx, hbacky, neg_mul_neg]
    simp only [hzero, if_false]
    rcases hnear with hnone | hsame
    · have hless : dx < dy := by omega
      simp only [hless, if_true]
      rw [hnone, crossed_still]
      split_ifs <;> rw [Prod.mk.injEq] <;> omega
    · rw [hsame]
      split_ifs <;> first | rfl | omega

theorem painted_reversed (h1 : OnScreen oltk x1 y1) (h2 : OnScreen oltk x2 y2) :
    painted oltk x2 y2 x1 y1 = painted oltk x1 y1 x2 y2 := by
  have hlonger : longer x2 y2 x1 y1 = longer x1 y1 x2 y2 := by
    rw [longer, longer]
    omega
  ext p
  rw [mem_painted h2 h1, mem_painted h1 h2, hlonger]
  simp only [linePoint_reversed]

theorem along_linePoint (x1 y1 x2 y2 : ℤ) (k : ℕ) :
    along x1 y1 x2 y2 (linePoint x1 y1 x2 y2 k) = along x1 y1 x2 y2 (linePoint x1 y1 x2 y2 0) + k := by
  induction k with
  | zero => exact (Int.add_zero _).symm
  | succ k ih =>
    rw [(linePoint_step x1 y1 x2 y2 k).1, ih]
    push_cast
    ring

theorem painted_ncard (h1 : OnScreen oltk x1 y1) (h2 : OnScreen oltk x2 y2) :
    (painted oltk x1 y1 x2 y2).ncard = longer x1 y1 x2 y2 + 1 := by
  have himage : painted oltk x1 y1 x2 y2 =
      (Finset.range (longer x1 y1 x2 y2 + 1)).image (linePoint x1 y1 x2 y2) := by
    ext p
    rw [mem_painted h1 h2]
    simp
  have hinj : Function.Injective (linePoint x1 y1 x2 y2) := by
    intro j k hjk
    have hj := along_linePoint x1 y1 x2 y2 j
    have hk := along_linePoint x1 y1 x2 y2 k
    rw [hjk, hk] at hj
    omega
  rw [himage, Set.ncard_coe_finset, Finset.card_image_of_injective _ hinj, Finset.card_range]

theorem slanted_short (hx : x1 ≠ x2) (hy : y1 ≠ y2) :
    (∀ k ≤ longer x1 y1 x2 y2, linePoint x1 y1 x2 y2 k ≠ (x1, y1)) ∨
      ∀ k ≤ longer x1 y1 x2 y2, linePoint x1 y1 x2 y2 k ≠ (x2, y2) := by
  have hstep := sign_step (x2 - x1) (y2 - y1)
  have hsteep := far_end y1 y2 x1 x2
  have hshallow := far_end x1 x2 y1 y2
  have hxpos : 0 < (x2 - x1).natAbs := by omega
  have hypos : 0 < (y2 - y1).natAbs := by omega
  rw [mul_comm (sign (y2 - y1))] at hsteep
  generalize hs : sign (x2 - x1) * sign (y2 - y1) = step at hstep hsteep hshallow
  generalize hdx : (x2 - x1).natAbs = dx at hxpos hsteep hshallow
  generalize hdy : (y2 - y1).natAbs = dy at hypos hsteep hshallow
  simp only [linePoint, longer, hs, hdx, hdy, hypos.ne', if_false, ne_eq]
  by_cases hless : dx < dy
  · have hshort := crossed_end hypos hxpos
    simp only [hless, if_true]
    by_cases hswap : y1 > y2
    · left
      intro k _ hk
      obtain ⟨-, hyend, hxend⟩ := hsteep.2 hswap
      simp only [hswap, if_true, Prod.mk.injEq] at hk
      obtain rfl : k = dy := by omega
      exact step_short hstep hshort (hk.1.trans hxend.symm)
    · right
      intro k _ hk
      obtain ⟨-, hyend, hxend⟩ := hsteep.1 (not_lt.mp hswap)
      simp only [hswap, if_false, Prod.mk.injEq] at hk
      obtain rfl : k = dy := by omega
      exact step_short hstep hshort (hk.1.trans hxend.symm)
  · have hshort := crossed_end hxpos hypos
    simp only [hless, if_false]
    by_cases hswap : x1 > x2
    · left
      intro k _ hk
      obtain ⟨-, hxend, hyend⟩ := hshallow.2 hswap
      simp only [hswap, if_true, Prod.mk.injEq] at hk
      obtain rfl : k = dx := by omega
      exact step_short hstep hshort (hk.2.trans hyend.symm)
    · right
      intro k _ hk
      obtain ⟨-, hxend, hyend⟩ := hshallow.1 (not_lt.mp hswap)
      simp only [hswap, if_false, Prod.mk.injEq] at hk
      obtain rfl : k = dx := by omega
      exact step_short hstep hshort (hk.2.trans hyend.symm)

theorem straight_ends (h : x1 = x2 ∨ y1 = y2) :
    (∃ k ≤ longer x1 y1 x2 y2, linePoint x1 y1 x2 y2 k = (x1, y1)) ∧
      ∃ k ≤ longer x1 y1 x2 y2, linePoint x1 y1 x2 y2 k = (x2, y2) := by
  obtain ⟨dx, hdx⟩ : ∃ dx, dx = (x2 - x1).natAbs := ⟨_, rfl⟩
  obtain ⟨dy, hdy⟩ : ∃ dy, dy = (y2 - y1).natAbs := ⟨_, rfl⟩
  simp only [linePoint, longer, ← hdx, ← hdy]
  by_cases hzero : dy = 0
  · simp only [hzero, if_true, Prod.mk.injEq, and_true]
    split_ifs
    · exact ⟨⟨0, by omega⟩, dx, by omega⟩
    · exact ⟨⟨dx, by omega⟩, 0, by omega⟩
  · have hless : dx < dy := by omega
    have hnone : dx = 0 := by omega
    simp only [hzero, hless, if_true, if_false, Prod.mk.injEq]
    simp only [hnone, crossed_still]
    split_ifs
    · exact ⟨⟨dy, by omega⟩, 0, by omega⟩
    · exact ⟨⟨0, by omega⟩, dy, by omega⟩

theorem lineRight_iff (oltk : Oltk) (x1 y1 x2 y2 : ℤ) (h1 : OnScreen oltk x1 y1)
    (h2 : OnScreen oltk x2 y2) : LineRight oltk x1 y1 x2 y2 ↔ x1 = x2 ∨ y1 = y2 := by
  constructor
  · intro h
    by_contra hslanted
    rw [not_or] at hslanted
    obtain ⟨hfirst, hsecond⟩ := h.ends
    obtain ⟨j, hj, hfirst⟩ := (mem_painted h1 h2 _).mp hfirst
    obtain ⟨k, hk, hsecond⟩ := (mem_painted h1 h2 _).mp hsecond
    rcases slanted_short hslanted.1 hslanted.2 with hshort | hshort
    · exact hshort j hj hfirst
    · exact hshort k hk hsecond
  · intro h
    obtain ⟨hfirst, hsecond⟩ := straight_ends h
    have hends : (x1, y1) ∈ painted oltk x1 y1 x2 y2 ∧ (x2, y2) ∈ painted oltk x1 y1 x2 y2 :=
      ⟨(mem_painted h1 h2 _).mpr hfirst, (mem_painted h1 h2 _).mpr hsecond⟩
    refine ⟨painted_ncard h1 h2, ⟨linePoint x1 y1 x2 y2, mem_painted h1 h2, ?_⟩, hends, ?_⟩
    · exact fun k _ => linePoint_step x1 y1 x2 y2 k
    · rw [painted_reversed h1 h2]
      exact hends

def drawingBoard : Oltk := ⟨8, 8, fun _ _ => 0, [], ⟨0, 0, 0, 0⟩⟩

theorem drawingBoard_onScreen (x y : ℕ) (h : x < 8 ∧ y < 8) : OnScreen drawingBoard x y := by
  have hwidth : drawingBoard.width = 8 := rfl
  have hheight : drawingBoard.height = 8 := rfl
  constructor
  · omega
  · omega
  · rw [hwidth]
    decide

theorem lineRight_iff_vertical : LineRight drawingBoard 3 1 3 6 :=
  (lineRight_iff drawingBoard 3 1 3 6 (drawingBoard_onScreen 3 1 (by decide))
    (drawingBoard_onScreen 3 6 (by decide))).mpr (Or.inl rfl)

theorem diagonal_short : ¬ LineRight drawingBoard 0 0 1 1 := by
  intro h
  have hstart := drawingBoard_onScreen 0 0 (by decide)
  have hlast := drawingBoard_onScreen 1 1 (by decide)
  obtain ⟨k, hk, hit⟩ := (mem_painted hstart hlast (1, 1)).mp h.ends.2
  have hturns : k ≤ 1 := hk
  rcases Nat.le_one_iff_eq_zero_or_eq_one.mp hturns with rfl | rfl
  · exact absurd hit (by decide)
  · exact absurd hit (by decide)

end SystemTestSuite.Dm2
