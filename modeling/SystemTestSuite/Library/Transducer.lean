import Mathlib.Data.List.Basic
import Mathlib.Data.List.Flatten

namespace SystemTestSuite.Library.Transducer

variable {σ β ο ι : Type}

/-- The state after some symbols and what was put out on the way, `none` once a step gives up. -/
def feed (step : σ → β → Option (σ × List ο)) : σ → List β → Option (σ × List ο)
  | s, [] => some (s, [])
  | s, b :: bs => (step s b).bind fun r =>
      (feed step r.1 bs).map fun t => (t.1, r.2 ++ t.2)

variable {step : σ → β → Option (σ × List ο)}

@[simp] theorem feed_nil (s : σ) : feed step s [] = some (s, []) := rfl

theorem feed_cons_some {s t u : σ} {b : β} {bs : List β} {os ps : List ο}
    (hb : step s b = some (t, os)) (hbs : feed step t bs = some (u, ps)) :
    feed step s (b :: bs) = some (u, os ++ ps) := by
  simp [feed, hb, hbs]

theorem feed_append (s : σ) (xs ys : List β) :
    feed step s (xs ++ ys) = (feed step s xs).bind fun r =>
      (feed step r.1 ys).map fun t => (t.1, r.2 ++ t.2) := by
  induction xs generalizing s with
  | nil => simp
  | cons x xs ih =>
    simp only [List.cons_append, feed]
    cases step s x with
    | none => rfl
    | some r =>
      simp only [Option.bind_some, ih]
      cases feed step r.1 xs with
      | none => rfl
      | some t => simp [Function.comp_def]

theorem feed_append_some {s t u : σ} {xs ys : List β} {os ps : List ο}
    (hx : feed step s xs = some (t, os)) (hy : feed step t ys = some (u, ps)) :
    feed step s (xs ++ ys) = some (u, os ++ ps) := by
  simp [feed_append, hx, hy]

def feedReads (step : σ → β → Option (σ × List ο)) : σ → List (List β) → Option (σ × List ο)
  | s, [] => some (s, [])
  | s, c :: cs => (feed step s c).bind fun r =>
      (feedReads step r.1 cs).map fun t => (t.1, r.2 ++ t.2)

theorem feedReads_eq (s : σ) (cs : List (List β)) :
    feedReads step s cs = feed step s cs.flatten := by
  induction cs generalizing s with
  | nil => rfl
  | cons c cs ih => simp [feedReads, ih, feed_append]

theorem feed_items {Rest : σ → Prop} (encode : ι → List β) (R : ι → List ο → Prop)
    {items : List ι}
    (h : ∀ i ∈ items, ∀ s, Rest s → ∃ t os, feed step s (encode i) = some (t, os) ∧ Rest t ∧ R i os)
    {s : σ} (hs : Rest s) :
    ∃ t oss, feed step s (items.flatMap encode) = some (t, oss.flatten) ∧ Rest t ∧
      List.Forall₂ R items oss := by
  induction items generalizing s with
  | nil => exact ⟨s, [], rfl, hs, .nil⟩
  | cons i items ih =>
    obtain ⟨t, os, hi, ht, hr⟩ := h i (by simp) s hs
    obtain ⟨u, oss, hf, hu, hrs⟩ := ih (fun j hj => h j (List.mem_cons_of_mem _ hj)) ht
    exact ⟨u, os :: oss, feed_append_some hi hf, hu, .cons hr hrs⟩

end SystemTestSuite.Library.Transducer
