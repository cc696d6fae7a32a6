import Mathlib.Data.List.Range

namespace SystemTestSuite.Library

variable {α β : Type}

theorem exists_mapM {f : α → Option β} {l : List α} (h : ∀ a ∈ l, ∃ b, f a = some b) :
    ∃ bs, l.mapM f = some bs ∧ bs.length = l.length := by
  induction l with
  | nil => exact ⟨[], rfl, rfl⟩
  | cons a l ih =>
    obtain ⟨b, hb⟩ := h a (by simp)
    obtain ⟨bs, hbs, hlen⟩ := ih (fun a ha => h a (by simp [ha]))
    refine ⟨b :: bs, ?_, congrArg (· + 1) hlen⟩
    rw [List.mapM_cons, hb, hbs]
    rfl

theorem mapM_length {f : α → Option β} {l : List α} {bs : List β} (h : l.mapM f = some bs) :
    bs.length = l.length := by
  induction l generalizing bs with
  | nil =>
    obtain rfl := Option.some.inj h
    rfl
  | cons a l ih =>
    rw [List.mapM_cons] at h
    simp only [Option.bind_eq_bind, Option.bind_eq_some_iff] at h
    obtain ⟨b, -, bs', hbs', heq⟩ := h
    obtain rfl := Option.some.inj heq
    rw [List.length_cons, List.length_cons, ih hbs']

theorem mapM_eq_some {f : α → Option β} {l : List α} {bs : List β} :
    l.mapM f = some bs ↔ l.map f = bs.map some := by
  induction l generalizing bs with
  | nil => cases bs <;> simp
  | cons a l ih =>
    rw [List.mapM_cons, List.map_cons]
    cases bs with
    | nil => simp [Option.bind_eq_some_iff]
    | cons b bs => simp [Option.bind_eq_some_iff, ih]

theorem mapM_eq_none {f : α → Option β} {l : List α} :
    l.mapM f = none ↔ ∃ a ∈ l, f a = none := by
  constructor
  · intro h
    by_contra hall
    push Not at hall
    obtain ⟨bs, hbs, -⟩ := exists_mapM (fun a ha => Option.ne_none_iff_exists'.mp (hall a ha))
    rw [h] at hbs
    cases hbs
  · rintro ⟨a, ha, hnone⟩
    by_contra hsome
    obtain ⟨bs, hbs⟩ := Option.ne_none_iff_exists'.mp hsome
    have hmem := List.mem_map_of_mem (f := f) ha
    rw [mapM_eq_some.mp hbs, hnone] at hmem
    simp at hmem

theorem mapM_range' {f : ℕ → Option α} {l : List α} {s : ℕ}
    (h : ∀ i, ∀ hi : i < l.length, f (s + i) = some l[i]) :
    (List.range' s l.length).mapM f = some l := by
  induction l generalizing s with
  | nil => rfl
  | cons b l ih =>
    have hfirst : f s = some b := h 0 (by simp)
    have hrest : (List.range' (s + 1) l.length).mapM f = some l := by
      refine ih (fun i hi => ?_)
      rw [Nat.add_assoc, Nat.add_comm 1]
      exact h (i + 1) (by simpa using hi)
    rw [List.length_cons, List.range'_succ, List.mapM_cons, hfirst, hrest]
    rfl

theorem mapM_range {f : ℕ → Option α} {l : List α}
    (h : ∀ i, ∀ hi : i < l.length, f i = some l[i]) :
    (List.range l.length).mapM f = some l := by
  rw [List.range_eq_range']
  exact mapM_range' (fun i hi => by rw [Nat.zero_add]; exact h i hi)

theorem mapM_eq_map {f : α → Option β} {g : α → β} {l : List α} (h : ∀ a ∈ l, f a = some (g a)) :
    l.mapM f = some (l.map g) := by
  induction l with
  | nil => rfl
  | cons a l ih =>
    rw [List.mapM_cons, h a List.mem_cons_self, ih (fun b hb => h b (List.mem_cons_of_mem a hb))]
    rfl

theorem mapM_mono {f g : α → Option β} (h : ∀ a b, f a = some b → g a = some b) {l : List α}
    {bs : List β} (hl : l.mapM f = some bs) : l.mapM g = some bs := by
  induction l generalizing bs with
  | nil => exact hl
  | cons a l ih =>
    rw [List.mapM_cons] at hl ⊢
    simp only [Option.bind_eq_bind, Option.bind_eq_some_iff] at hl ⊢
    obtain ⟨b, hb, bs', hbs', heq⟩ := hl
    exact ⟨b, h a b hb, bs', ih hbs', heq⟩

/-- Where `a` returns a value of which `P` holds, `b` returns the same. -/
def Keeps (P : α → Prop) (a b : Option α) : Prop := ∀ r, P r → a = some r → b = some r

variable {P : α → Prop}

theorem Keeps.refl (a : Option α) : Keeps P a a := fun _ _ h => h

theorem Keeps.bind {a b : Option β} {k l : β → Option α} (h : ∀ x, a = some x → b = some x)
    (hk : ∀ x, a = some x → Keeps P (k x) (l x)) : Keeps P (a.bind k) (b.bind l) := by
  intro r hr hbind
  obtain ⟨x, hx, hkx⟩ := Option.bind_eq_some_iff.mp hbind
  rw [h x hx]
  exact hk x hx r hr hkx

theorem Keeps.guard {c d : Prop} [Decidable c] [Decidable d] {x : α} {a b : Option α}
    (hdc : d → c) (hx : c → P x → d) (h : Keeps P a b) :
    Keeps P (if c then some x else a) (if d then some x else b) := by
  intro r hr hif
  by_cases hc : c
  · rw [if_pos hc] at hif
    obtain rfl := Option.some.inj hif
    rw [if_pos (hx hc hr)]
  · rw [if_neg hc] at hif
    rw [if_neg (fun hd => hc (hdc hd))]
    exact h r hr hif

end SystemTestSuite.Library
