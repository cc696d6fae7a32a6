import Mathlib.Tactic.SplitIfs

namespace SystemTestSuite.Library

variable {α β : Type} {x : Option α} {fits fits' : Prop} {post : α → Prop} {post' : β → Prop}

/-- There is a result when `fits`, and only then. -/
structure Yields (x : Option α) (fits : Prop) (post : α → Prop) : Prop where
  result : fits → ∃ a, x = some a ∧ post a
  nothing : ¬ fits → x = none

theorem yields_some {a : α} (h : post a) : Yields (some a) True post :=
  ⟨fun _ => ⟨a, rfl, h⟩, fun hnot => absurd trivial hnot⟩

theorem yields_ite [Decidable fits] {a : α} (h : fits → post a) :
    Yields (if fits then some a else none) fits post :=
  ⟨fun hfits => ⟨a, if_pos hfits, h hfits⟩, fun hnot => if_neg hnot⟩

theorem Yields.bind {f : α → Option β} (h : Yields x fits post)
    (hf : ∀ a, post a → Yields (f a) fits' post') : Yields (x.bind f) (fits ∧ fits') post' := by
  constructor
  · rintro ⟨hfits, hfits'⟩
    obtain ⟨a, ha, hpost⟩ := h.result hfits
    obtain ⟨b, hb, hpost'⟩ := (hf a hpost).result hfits'
    exact ⟨b, by rw [ha, Option.bind_some, hb], hpost'⟩
  · intro hnot
    by_cases hfits : fits
    · obtain ⟨a, ha, hpost⟩ := h.result hfits
      rw [ha, Option.bind_some]
      exact (hf a hpost).nothing fun hfits' => hnot ⟨hfits, hfits'⟩
    · rw [h.nothing hfits, Option.bind_none]

theorem Yields.next {f : α → Option β} {a : α} (h : Yields x fits (· = a))
    (hf : Yields (f a) fits' post') : Yields (x.bind f) (fits ∧ fits') post' := by
  apply h.bind
  rintro _ rfl
  exact hf

theorem Yields.map {f : α → β} (h : Yields x fits post) (hf : ∀ a, post a → post' (f a)) :
    Yields (x.map f) fits post' := by
  constructor
  · intro hfits
    obtain ⟨a, ha, hpost⟩ := h.result hfits
    exact ⟨f a, by rw [ha, Option.map_some], hf a hpost⟩
  · intro hnot
    rw [h.nothing hnot, Option.map_none]

theorem Yields.iff (h : Yields x fits post) (hiff : fits ↔ fits') : Yields x fits' post :=
  ⟨fun hfits => h.result (hiff.mpr hfits), fun hnot => h.nothing fun hfits => hnot (hiff.mp hfits)⟩

theorem Yields.weaken {weaker : α → Prop} (h : Yields x fits post) (hw : ∀ a, post a → weaker a) :
    Yields x fits weaker := by
  refine ⟨fun hfits => ?_, h.nothing⟩
  obtain ⟨a, ha, hpost⟩ := h.result hfits
  exact ⟨a, ha, hw a hpost⟩

theorem Yields.keep {fact : Prop} (h : Yields x fits post) (hfact : fits → fact) :
    Yields x fits fun a => post a ∧ fact := by
  refine ⟨fun hfits => ?_, h.nothing⟩
  obtain ⟨a, ha, hpost⟩ := h.result hfits
  exact ⟨a, ha, hpost, hfact hfits⟩

theorem Yields.isSome_iff (h : Yields x fits post) : x.isSome = true ↔ fits := by
  constructor
  · intro hsome
    apply Classical.byContradiction
    intro hnot
    rw [h.nothing hnot] at hsome
    cases hsome
  · intro hfits
    obtain ⟨a, ha, -⟩ := h.result hfits
    rw [ha]
    rfl

theorem Yields.of_some {a : α} (h : Yields x fits post) (hx : x = some a) : fits ∧ post a := by
  have hfits : fits := h.isSome_iff.mp (by rw [hx]; rfl)
  obtain ⟨b, hb, hpost⟩ := h.result hfits
  rw [hx] at hb
  rw [Option.some.inj hb]
  exact ⟨hfits, hpost⟩

section Loop

variable {f : β → α → Option β} {a : α} {b : β} {l l' : List α} {mid : β → Prop}

theorem yields_foldlM_cons (h : Yields (f b a) fits mid)
    (hrest : ∀ b', mid b' → Yields (l.foldlM f b') fits' post') :
    Yields ((a :: l).foldlM f b) (fits ∧ fits') post' := by
  rw [List.foldlM_cons]
  exact h.bind hrest

theorem yields_foldlM_append (h : Yields (l.foldlM f b) fits mid)
    (hrest : ∀ b', mid b' → Yields (l'.foldlM f b') fits' post') :
    Yields ((l ++ l').foldlM f b) (fits ∧ fits') post' := by
  rw [List.foldlM_append]
  exact h.bind hrest

theorem yields_foldlM_singleton (h : Yields (f b a) fits post') :
    Yields ([a].foldlM f b) fits post' := by
  refine (yields_foldlM_cons h fun b' hb' => ?_).iff (iff_of_eq (and_true fits))
  exact yields_some hb'

end Loop

end SystemTestSuite.Library
