import SystemTestSuite.Library.Memory

/-!
Arrays of a fixed size that hold a table ended by a NULL entry. Every access is checked against
the size.
-/

namespace SystemTestSuite.Library

variable {α β : Type}

/-- The slots of an array; `none` is a NULL entry. -/
abbrev Slots (α : Type) := ℕ → Option α

namespace Slots

def null : Slots α := fun _ => none

def moveUp (size : ℕ) (t : Slots α) (dst n : ℕ) : Option (Slots α) :=
  if n ≤ size ∧ dst + n ≤ size then
    some fun i => if dst ≤ i ∧ i < dst + n then t (i - dst) else t i
  else none

def copyIn (size : ℕ) (t : Slots α) (entries : List α) : Option (Slots α) :=
  if entries.length ≤ size then
    some fun i => if h : i < entries.length then some entries[i] else t i
  else none

def countThrough (t : Slots α) (n : ℕ) : ℕ → Option ℕ
  | 0 => none
  | room + 1 => match t n with
    | none => some (n + 1)
    | some _ => countThrough t (n + 1) room

def scan (t : Slots α) (body : α → Option β) (stop : β) (n : ℕ) : ℕ → Option β
  | 0 => none
  | room + 1 => match t n with
    | none => some stop
    | some entry => match body entry with
      | none => scan t body stop (n + 1) room
      | some result => some result

structure Holds (size : ℕ) (t : Slots α) (entries : List α) : Prop where
  fits : entries.length < size
  entry : ∀ i < entries.length, t i = entries[i]?
  ended : t entries.length = none

variable {size dst n room : ℕ} {t : Slots α} {entries arr : List α} {body : α → Option β} {stop : β}

theorem Holds.null (h : 0 < size) : Holds size (null : Slots α) [] :=
  ⟨h, fun _ hi => absurd hi (Nat.not_lt_zero _), rfl⟩

theorem Holds.slot (h : Holds size t entries) (hn : n ≤ entries.length) : t n = entries[n]? := by
  rcases hn.lt_or_eq with hlt | rfl
  · exact h.entry n hlt
  · rw [h.ended, List.getElem?_eq_none le_rfl]

theorem Holds.countThrough_from (h : Holds size t entries) (hn : n ≤ entries.length)
    (hroom : entries.length < n + room) : countThrough t n room = some (entries.length + 1) := by
  induction room generalizing n with
  | zero => omega
  | succ room ih =>
    rw [countThrough, h.slot hn]
    rcases hn.lt_or_eq with hlt | rfl
    · rw [List.getElem?_eq_getElem hlt]
      exact ih hlt (by omega)
    · rw [List.getElem?_eq_none le_rfl]

theorem Holds.countThrough (h : Holds size t entries) :
    t.countThrough 0 size = some (entries.length + 1) := by
  apply h.countThrough_from (Nat.zero_le _)
  rw [Nat.zero_add]
  exact h.fits

theorem Holds.scan_from (h : Holds size t entries) (hn : n ≤ entries.length)
    (hroom : entries.length < n + room) :
    scan t body stop n room = some (((entries.drop n).findSome? body).getD stop) := by
  induction room generalizing n with
  | zero => omega
  | succ room ih =>
    rw [scan, h.slot hn]
    rcases hn.lt_or_eq with hlt | rfl
    · rw [List.getElem?_eq_getElem hlt, List.drop_eq_getElem_cons hlt, List.findSome?_cons]
      cases hbody : body entries[n] with
      | none =>
        simp only [hbody]
        exact ih hlt (by omega)
      | some result => simp [hbody]
    · simp

theorem Holds.scan (h : Holds size t entries) :
    t.scan body stop 0 size = some ((entries.findSome? body).getD stop) := by
  apply h.scan_from (Nat.zero_le _)
  rw [Nat.zero_add]
  exact h.fits

theorem Holds.prepend (h : Holds size t entries) (hfit : arr.length + (entries.length + 1) ≤ size) :
    ∃ t' t'', moveUp size t arr.length (entries.length + 1) = some t' ∧
      copyIn size t' arr = some t'' ∧ Holds size t'' (arr ++ entries) := by
  refine ⟨_, _, if_pos ⟨h.fits, hfit⟩, if_pos (by omega), ?_⟩
  have hslot : ∀ i ≤ (arr ++ entries).length,
      (if hi : i < arr.length then some arr[i]
        else if arr.length ≤ i ∧ i < arr.length + (entries.length + 1) then t (i - arr.length)
        else t i) = (arr ++ entries)[i]? := by
    intro i hi
    rw [List.length_append] at hi
    by_cases hin : i < arr.length
    · rw [dif_pos hin, List.getElem?_append_left hin, List.getElem?_eq_getElem hin]
    · rw [dif_neg hin, if_pos (by omega), List.getElem?_append_right (by omega)]
      exact h.slot (by omega)
  refine ⟨?_, fun i hi => hslot i hi.le, ?_⟩
  · rw [List.length_append]
    omega
  · exact (hslot _ le_rfl).trans (List.getElem?_eq_none le_rfl)

end Slots

end SystemTestSuite.Library
