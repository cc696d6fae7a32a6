import SystemTestSuite.Library.Painter
import Mathlib.Algebra.Group.Int.Defs
import Mathlib.Data.Int.Basic

/-!
The buttons of `oltk/oltk.c` and how they get on the screen. Pixels are whole numbers, 0 is black,
and the frame buffer is a function of the coordinates. Signed arithmetic is that of the integers,
as long as it does not overflow.
-/

namespace SystemTestSuite.Dm2

structure OltkRectangle where
  x : ℤ
  y : ℤ
  width : ℤ
  height : ℤ
  deriving DecidableEq, Repr

inductive ButtonState where
  | normal | active
  deriving DecidableEq, Repr

abbrev FrameBuffer := ℤ → ℤ → ℤ

structure OltkButton where
  rect : OltkRectangle
  shows : ℤ
  sensitive : ℤ
  name : Option String
  state : ButtonState
  update : Bool
  draw : ButtonState → Option String → FrameBuffer

structure Oltk where
  width : ℕ
  height : ℕ
  fb : FrameBuffer
  zbuttons : List OltkButton
  invalidRect : OltkRectangle

def hasPoint (rect : OltkRectangle) (px py : ℤ) : Bool :=
  px ≥ rect.x && px < rect.x + rect.width && py ≥ rect.y && py < rect.y + rect.height

def toUnsigned (z : ℤ) : ℤ := z % 2 ^ 32

def setRow (fb : FrameBuffer) (x y width pixel : ℤ) : FrameBuffer := fun px py =>
  if py = y ∧ x ≤ px ∧ px < x + width then pixel else fb px py

/-- `x` and the width of the screen are converted where they meet the unsigned `width`. -/
def hline (oltk : Oltk) (fb : FrameBuffer) (x y width pixel : ℤ) : FrameBuffer :=
  if y < 0 ∨ y ≥ oltk.height ∨ x ≥ oltk.width then fb
  else if x < 0 then
    if toUnsigned (x + width) ≤ 0 then fb
    else
      let width := toUnsigned (width + x)
      setRow fb 0 y (if toUnsigned width ≥ oltk.width then oltk.width else width) pixel
  else setRow fb x y (if toUnsigned (x + width) ≥ oltk.width then oltk.width - x else width) pixel

def fillRectangle (oltk : Oltk) (fb : FrameBuffer) (x y width height color : ℤ) : FrameBuffer :=
  (List.range (toUnsigned height).toNat).foldl
    (fun fb (i : ℕ) => hline oltk fb x (y + i) (toUnsigned width) color) fb

def oltkInvalidate (invalid rect : OltkRectangle) : OltkRectangle :=
  if invalid.width * invalid.height = 0 then rect
  else
    let l := invalid.x
    let r := invalid.x + invalid.width
    let t := invalid.y
    let b := invalid.y + invalid.height
    let l := if rect.x < l then rect.x else l
    let r := if rect.x + rect.width > r then rect.x + rect.width else r
    let t := if rect.y < t then rect.y else t
    let b := if rect.y + rect.height > b then rect.y + rect.height else b
    ⟨l, t, r - l, b - t⟩

/-- What it returns; the intersection itself goes to a copy that no caller keeps. -/
def rectIntersect (rect1 rect2 : OltkRectangle) : Bool :=
  if rect1.width = 0 ∨ rect1.height = 0 ∨ rect2.width = 0 ∨ rect2.height = 0 then false
  else
    let l := if rect1.x < rect2.x then rect2.x else rect1.x
    let r := if rect1.x + rect1.width > rect2.x + rect2.width then rect2.x + rect2.width
      else rect1.x + rect1.width
    let t := if rect1.y < rect2.y then rect2.y else rect1.y
    let b := if rect1.y + rect1.height > rect2.y + rect2.height then rect2.y + rect2.height
      else rect1.y + rect1.height
    l < r && t < b

def oltkButtonShow (invalid : OltkRectangle) (b : OltkButton) (shows : ℤ) :
    OltkRectangle × OltkButton :=
  if b.shows ≠ shows then
    (if shows = 0 then oltkInvalidate invalid b.rect else invalid,
      { b with shows := shows, update := true })
  else (invalid, b)

def oltkButtonSetName (b : OltkButton) (name : Option String) : OltkButton :=
  { b with name := name, update := true }

structure Sample where
  x : ℤ
  y : ℤ
  pressure : ℤ
  deriving DecidableEq, Repr

/-- `button_handle` without the click, whose callback is further calls. -/
def buttonHandle (b : OltkButton) (e : Option Sample) : OltkButton :=
  if b.shows = 0 ∨ b.sensitive = 0 then b
  else
    let state :=
      match e with
      | some e =>
        if hasPoint b.rect e.x e.y then
          if e.pressure ≠ 0 then .active else .normal
        else .normal
      | none => .normal
    { b with state := state, update := b.update || decide (state ≠ b.state) }

def drawButton (b : OltkButton) (fb : FrameBuffer) : FrameBuffer := fun px py =>
  if hasPoint b.rect px py then b.draw b.state b.name px py else fb px py

def redrawLoop (invalid : OltkRectangle) (fb : FrameBuffer) :
    List OltkButton → OltkRectangle × FrameBuffer
  | [] => (invalid, fb)
  | b :: bs =>
    if b.shows ≠ 0 ∧ (b.update = true ∨ rectIntersect invalid b.rect = true) then
      redrawLoop (oltkInvalidate invalid b.rect) (drawButton b fb) bs
    else redrawLoop invalid fb bs

def oltkRedraw (oltk : Oltk) : Oltk :=
  let invalid := oltk.invalidRect
  let fb :=
    if invalid.width * invalid.height ≠ 0 then
      fillRectangle oltk oltk.fb invalid.x invalid.y invalid.width invalid.height 0
    else oltk.fb
  let r := redrawLoop invalid fb oltk.zbuttons
  { oltk with
    fb := r.2
    zbuttons := oltk.zbuttons.map (fun b => { b with update := false })
    invalidRect := { r.1 with width := 0 } }

end SystemTestSuite.Dm2
