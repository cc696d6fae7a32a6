import Mathlib.Data.List.Basic
import Mathlib.Order.Basic

/-!
Deterministic machines driven by events that a state may refuse, and the runs
whose steps all meet a side condition.
-/

namespace SystemTestSuite.Library

structure Machine (S E : Type) where
  start : S → Prop
  enabled : S → E → Prop
  next : S → E → S

namespace Machine

variable {S E : Type} {M : Machine S E}

/-- A run from `s` in which every step is enabled and meets `ok`. -/
inductive RunWhile (M : Machine S E) (ok : S → E → Prop) (s : S) : List E → S → Prop
  | nil : RunWhile M ok s [] s
  | snoc {es t e} : RunWhile M ok s es t → M.enabled t e → ok t e →
      RunWhile M ok s (es ++ [e]) (M.next t e)

abbrev Run (M : Machine S E) : S → List E → S → Prop := M.RunWhile (fun _ _ => True)

def ReachableWhile (M : Machine S E) (ok : S → E → Prop) (t : S) : Prop :=
  ∃ s es, M.start s ∧ M.RunWhile ok s es t

def after (M : Machine S E) (s : S) (es : List E) : S := es.foldl M.next s

@[simp] theorem after_nil (s : S) : M.after s [] = s := rfl

@[simp] theorem after_cons (s : S) (e : E) (es : List E) :
    M.after s (e :: es) = M.after (M.next s e) es := rfl

@[simp] theorem after_append (s : S) (es fs : List E) :
    M.after s (es ++ fs) = M.after (M.after s es) fs := List.foldl_append

theorem RunWhile.after_eq {ok : S → E → Prop} {s t : S} {es : List E}
    (h : M.RunWhile ok s es t) : t = M.after s es := by
  induction h with
  | nil => rfl
  | snoc _ _ _ ih => rw [after_append, ← ih]; rfl

theorem RunWhile.mono {ok ok' : S → E → Prop} {s t : S} {es : List E}
    (h : M.RunWhile ok s es t) (himp : ∀ t e, M.enabled t e → ok t e → ok' t e) :
    M.RunWhile ok' s es t := by
  induction h with
  | nil => exact .nil
  | snoc _ he hok ih => exact .snoc ih he (himp _ _ he hok)

theorem RunWhile.run {ok : S → E → Prop} {s t : S} {es : List E}
    (h : M.RunWhile ok s es t) : M.Run s es t := h.mono (fun _ _ _ _ => trivial)

theorem RunWhile.append {ok : S → E → Prop} {s t u : S} {es fs : List E}
    (h : M.RunWhile ok s es t) (k : M.RunWhile ok t fs u) : M.RunWhile ok s (es ++ fs) u := by
  induction k with
  | nil => simpa using h
  | snoc _ he hok ih => rw [← List.append_assoc]; exact .snoc ih he hok

theorem RunWhile.single {ok : S → E → Prop} {s : S} {e : E} (he : M.enabled s e)
    (hok : ok s e) : M.RunWhile ok s [e] (M.next s e) := RunWhile.snoc .nil he hok

theorem RunWhile.cons {ok : S → E → Prop} {s t : S} {e : E} {es : List E}
    (he : M.enabled s e) (hok : ok s e) (h : M.RunWhile ok (M.next s e) es t) :
    M.RunWhile ok s (e :: es) t := (RunWhile.single he hok).append h

theorem RunWhile.invariant {ok : S → E → Prop} {I : S → Prop}
    (hstep : ∀ t e, I t → M.enabled t e → ok t e → I (M.next t e))
    {s t : S} {es : List E} (h : M.RunWhile ok s es t) (hs : I s) : I t := by
  induction h with
  | nil => exact hs
  | snoc _ he hok ih => exact hstep _ _ ih he hok

theorem ReachableWhile.invariant {ok : S → E → Prop} {I : S → Prop}
    (hstart : ∀ s, M.start s → I s)
    (hstep : ∀ t e, I t → M.enabled t e → ok t e → I (M.next t e))
    {t : S} (h : M.ReachableWhile ok t) : I t := by
  obtain ⟨s, es, hs, hr⟩ := h
  exact hr.invariant hstep (hstart s hs)

theorem runWhile_congr {ok ok' : S → E → Prop} {I : S → Prop}
    (hstep : ∀ t e, I t → M.enabled t e → ok t e → I (M.next t e))
    (hiff : ∀ t e, I t → M.enabled t e → (ok t e ↔ ok' t e)) {s t : S} {es : List E} (hs : I s) :
    M.RunWhile ok s es t ↔ M.RunWhile ok' s es t := by
  constructor
  · intro h
    induction h with
    | nil => exact .nil
    | snoc hr he hok ih => exact ih.snoc he ((hiff _ _ (hr.invariant hstep hs) he).mp hok)
  · intro h
    induction h with
    | nil => exact .nil
    | snoc _ he hok ih => exact ih.snoc he ((hiff _ _ (ih.invariant hstep hs) he).mpr hok)

theorem RunWhile.last {ok : S → E → Prop} {s t : S} {es : List E} {e : E}
    (h : M.RunWhile ok s (es ++ [e]) t) : ok (M.after s es) e := by
  generalize hfs : es ++ [e] = fs at h
  cases h with
  | nil => simp at hfs
  | @snoc es' t' e' hr he hok =>
    obtain ⟨rfl, hlast⟩ := List.append_inj' hfs rfl
    obtain rfl : e = e' := by simpa using hlast
    rwa [← hr.after_eq]

theorem run_after (M : Machine S E) (h : ∀ s e, M.enabled s e) (s : S) (es : List E) :
    M.Run s es (M.after s es) := by
  induction es generalizing s with
  | nil => exact .nil
  | cons e es ih => exact RunWhile.cons (h s e) trivial (ih _)

def restrict (M : Machine S E) (D : E → Prop) : Machine S E :=
  { M with enabled := fun s e => M.enabled s e ∧ D e }

def Checks (M : Machine S E) (ok : S → E → Prop) (s : S) : List E → Prop
  | [] => True
  | e :: es => (M.enabled s e ∧ ok s e) ∧ Checks M ok (M.next s e) es

instance {ok : S → E → Prop} [h : ∀ s e, Decidable (M.enabled s e)] [k : ∀ s e, Decidable (ok s e)]
    (s : S) (es : List E) : Decidable (M.Checks ok s es) := by
  induction es generalizing s with
  | nil => exact .isTrue trivial
  | cons e es ih => exact @instDecidableAnd _ _ (@instDecidableAnd _ _ (h s e) (k s e)) (ih _)

theorem Checks.runWhile {ok : S → E → Prop} {s : S} {es : List E} (h : M.Checks ok s es) :
    M.RunWhile ok s es (M.after s es) := by
  induction es generalizing s with
  | nil => exact .nil
  | cons e es ih => exact RunWhile.cons h.1.1 h.1.2 (ih h.2)

def Throughout (M : Machine S E) (P : S → Prop) (s : S) (es : List E) : Prop :=
  ∀ fs, fs <+: es → P (M.after s fs)

theorem RunWhile.throughout {ok : S → E → Prop} {I P : S → Prop}
    (hstep : ∀ t e, I t → M.enabled t e → ok t e → I (M.next t e))
    (hgives : ∀ t, I t → P t)
    {s t : S} {es : List E} (h : M.RunWhile ok s es t) (hs : I s) : M.Throughout P s es := by
  induction h with
  | nil =>
    intro fs hfs
    rw [List.prefix_nil.mp hfs]
    exact hgives s hs
  | @snoc es t e hr he hok ih =>
    intro fs hfs
    rcases List.prefix_concat_iff.mp hfs with rfl | hfs
    · rw [after_append, ← hr.after_eq]
      exact hgives _ (hstep t e (hr.invariant hstep hs) he hok)
    · exact ih fs hfs

/-- Where `ok` keeps an invariant that gives `P`, and a step without `ok` breaks `P` at once,
a run has `P` throughout exactly when all its steps meet `ok`. -/
theorem Run.throughout_iff {ok : S → E → Prop} {I P : S → Prop}
    (hstep : ∀ t e, I t → M.enabled t e → ok t e → I (M.next t e))
    (hgives : ∀ t, I t → P t)
    (hbreaks : ∀ t e, I t → M.enabled t e → ¬ ok t e → ¬ P (M.next t e))
    {s t : S} {es : List E} (h : M.Run s es t) (hs : I s) :
    M.Throughout P s es ↔ M.RunWhile ok s es t := by
  constructor
  · intro hp
    induction h with
    | nil => exact .nil
    | @snoc es t e hr he _ ih =>
      have hprev := ih (fun fs hfs => hp fs (hfs.trans (List.prefix_append _ _)))
      have hi : I t := hprev.invariant hstep hs
      have hlast : P (M.next t e) := by
        have := hp _ (List.prefix_refl (es ++ [e]))
        rwa [after_append, ← hr.after_eq] at this
      by_cases hok : ok t e
      · exact hprev.snoc he hok
      · exact absurd hlast (hbreaks t e hi he hok)
  · intro hr
    exact hr.throughout hstep hgives hs

theorem throughout_iff_of_enabled {ok : S → E → Prop} {I P : S → Prop}
    (henabled : ∀ s e, M.enabled s e) (hgives : ∀ t, I t → P t)
    (hstep : ∀ t e, I t → ok t e → I (M.next t e))
    (hneeds : ∀ t e, I t → P (M.next t e) → ok t e) {s : S} (es : List E) (hs : I s) :
    M.Throughout P s es ↔ M.RunWhile ok s es (M.after s es) :=
  Run.throughout_iff (fun t e ht _ hok => hstep t e ht hok) hgives
    (fun t e ht _ hbad hp => hbad (hneeds t e ht hp)) (M.run_after henabled s es) hs

end Machine

end SystemTestSuite.Library
