import Mathlib.Data.Int.Notation
import Mathlib.Tactic.SplitIfs

namespace SystemTestSuite.Library

variable {α β γ δ : Type} {R S : α → β → Prop} {T : γ → δ → Prop}

/-- Both fail, or both return the same code and, where that is 0, results related by `R`. -/
inductive Alike (R : α → β → Prop) : Option (ℤ × α) → Option (ℤ × β) → Prop
  | fails : Alike R none none
  | returns {ret : ℤ} {x : α} {y : β} : (ret = 0 → R x y) → Alike R (some (ret, x)) (some (ret, y))

theorem Alike.rejects {ret : ℤ} {x : α} {y : β} (h : ret ≠ 0) :
    Alike R (some (ret, x)) (some (ret, y)) := .returns (fun hzero => absurd hzero h)

theorem Alike.bind (a : Option γ) {k : γ → Option (ℤ × α)} {l : γ → Option (ℤ × β)}
    (h : ∀ x, a = some x → Alike R (k x) (l x)) : Alike R (a.bind k) (a.bind l) := by
  cases a with
  | none => exact .fails
  | some x => exact h x rfl

theorem Alike.bind_alike {a : Option (ℤ × γ)} {b : Option (ℤ × δ)} {k : ℤ × γ → Option (ℤ × α)}
    {l : ℤ × δ → Option (ℤ × β)} (h : Alike T a b)
    (hk : ∀ ret x y, (ret = 0 → T x y) → Alike R (k (ret, x)) (l (ret, y))) :
    Alike R (a.bind k) (b.bind l) := by
  cases h with
  | fails => exact .fails
  | returns hT => exact hk _ _ _ hT

theorem Alike.ite {c : Prop} [Decidable c] {a a' : Option (ℤ × α)} {b b' : Option (ℤ × β)}
    (h : c → Alike R a b) (h' : ¬ c → Alike R a' b') :
    Alike R (if c then a else a') (if c then b else b') := by
  split_ifs with hc
  · exact h hc
  · exact h' hc

theorem Alike.guard {c : Prop} [Decidable c] {ret : ℤ} {x : α} {y : β} {a : Option (ℤ × α)}
    {b : Option (ℤ × β)} (hret : ret ≠ 0) (h : ¬ c → Alike R a b) :
    Alike R (if c then some (ret, x) else a) (if c then some (ret, y) else b) :=
  Alike.ite (fun _ => .rejects hret) h

theorem Alike.mono {a : Option (ℤ × α)} {b : Option (ℤ × β)} (h : Alike R a b)
    (hRS : ∀ x y, R x y → S x y) : Alike S a b := by
  cases h with
  | fails => exact .fails
  | returns hR => exact .returns (fun hzero => hRS _ _ (hR hzero))

theorem Alike.code {a : Option (ℤ × α)} {b : Option (ℤ × β)} (h : Alike R a b) :
    a.map Prod.fst = b.map Prod.fst := by
  cases h with
  | fails => rfl
  | returns hR => rfl

theorem Alike.accepts {a : Option (ℤ × α)} {b : Option (ℤ × β)} (h : Alike R a b) {x : α}
    (ha : a = some (0, x)) : ∃ y, b = some (0, y) ∧ R x y := by
  cases h with
  | fails => cases ha
  | returns hR =>
    obtain ⟨rfl, rfl⟩ := Prod.mk.inj (Option.some.inj ha)
    exact ⟨_, rfl, hR rfl⟩

end SystemTestSuite.Library
