import Mathlib.Tactic.SplitIfs

namespace SystemTestSuite.Library

variable {ε α β : Type} {P : α → Prop}

def OnceAccepted (P : α → Prop) (r : Except ε α) : Prop := ∀ a, r = .ok a → P a

theorem onceAccepted_ok {a : α} (h : P a) : OnceAccepted P (.ok a : Except ε α) := by
  intro a' hok
  rw [← Except.ok.inj hok]
  exact h

theorem onceAccepted_error (e : ε) : OnceAccepted P (.error e) := by
  intro a hok
  cases hok

theorem onceAccepted_ite {c : Prop} [Decidable c] {r r' : Except ε α}
    (ht : c → OnceAccepted P r) (hf : ¬ c → OnceAccepted P r') :
    OnceAccepted P (if c then r else r') := by
  split_ifs with h
  · exact ht h
  · exact hf h

theorem onceAccepted_bind {r : Except ε β} {k : β → Except ε α}
    (h : ∀ b, r = .ok b → OnceAccepted P (k b)) : OnceAccepted P (r >>= k) := by
  intro a hok
  cases r with
  | error e => cases hok
  | ok b => exact h b rfl a hok

theorem onceAccepted_guard {c : Prop} [Decidable c] {e : ε} {k : PUnit → Except ε α}
    {r : Except ε α} (h : OnceAccepted P r) :
    OnceAccepted P (if c then (throw e : Except ε PUnit) >>= k else r) := by
  apply onceAccepted_ite
  · intro _
    exact onceAccepted_error e
  · intro _
    exact h

end SystemTestSuite.Library
