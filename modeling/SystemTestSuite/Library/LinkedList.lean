import Mathlib.Data.List.Basic
import Mathlib.Data.List.Nodup
import Mathlib.Logic.Function.Basic

/-!
Doubly linked lists whose links stand in the records themselves. A list of records is the order in
which following `next` finds them; `none` is the null pointer.
-/

namespace SystemTestSuite.Library

structure Links (α : Type) where
  next : α → Option α
  prev : α → Option α

namespace Links

variable {α : Type} [DecidableEq α]

def setNext (k : Links α) (a : α) (v : Option α) : Links α :=
  { k with next := Function.update k.next a v }

def setPrev (k : Links α) (a : α) (v : Option α) : Links α :=
  { k with prev := Function.update k.prev a v }

def setNext? (k : Links α) (o v : Option α) : Links α :=
  match o with
  | some a => k.setNext a v
  | none => k

def setPrev? (k : Links α) (o v : Option α) : Links α :=
  match o with
  | some a => k.setPrev a v
  | none => k

variable (k : Links α) (a b : α) (o v : Option α)

@[simp] theorem setNext_next_self : (k.setNext a v).next a = v := Function.update_self ..
@[simp] theorem setPrev_prev_self : (k.setPrev a v).prev a = v := Function.update_self ..
@[simp] theorem setNext_prev : (k.setNext a v).prev = k.prev := rfl
@[simp] theorem setPrev_next : (k.setPrev a v).next = k.next := rfl

variable {a b o} in
theorem setNext_next_ne (h : b ≠ a) : (k.setNext a v).next b = k.next b :=
  Function.update_of_ne h ..

variable {a b o} in
theorem setPrev_prev_ne (h : b ≠ a) : (k.setPrev a v).prev b = k.prev b :=
  Function.update_of_ne h ..

@[simp] theorem setNext?_prev : (k.setNext? o v).prev = k.prev := by cases o <;> rfl
@[simp] theorem setPrev?_next : (k.setPrev? o v).next = k.next := by cases o <;> rfl

variable {a b o} in
theorem setNext?_next_ne (h : o ≠ some b) : (k.setNext? o v).next b = k.next b := by
  cases o with
  | none => rfl
  | some a => exact k.setNext_next_ne v (fun he => h (he ▸ rfl))

variable {a b o} in
theorem setPrev?_prev_ne (h : o ≠ some b) : (k.setPrev? o v).prev b = k.prev b := by
  cases o with
  | none => rfl
  | some a => exact k.setPrev_prev_ne v (fun he => h (he ▸ rfl))

theorem setNext?_next : (k.setNext? o v).next a = if o = some a then v else k.next a := by
  split_ifs with h
  · rw [h]
    exact k.setNext_next_self a v
  · exact k.setNext?_next_ne v h

theorem setPrev?_prev : (k.setPrev? o v).prev a = if o = some a then v else k.prev a := by
  split_ifs with h
  · rw [h]
    exact k.setPrev_prev_self a v
  · exact k.setPrev?_prev_ne v h

end Links

/-- The records of a list stand one behind the other, the first behind `before` and the last before
`after`. -/
def Linked {α : Type} (k : Links α) : Option α → Option α → List α → Prop
  | _, _, [] => True
  | before, after, a :: l =>
    k.prev a = before ∧ k.next a = l.head?.or after ∧ Linked k (some a) after l

section

variable {α : Type} {k k' : Links α} {before after v : Option α} {a : α} {l l' : List α}

theorem linked_append : Linked k before after (l ++ l') ↔
    Linked k before (l'.head?.or after) l ∧ Linked k (l.getLast?.or before) after l' := by
  induction l generalizing before with
  | nil => simp [Linked]
  | cons a l ih =>
    have hhead : (l ++ l').head?.or after = l.head?.or (l'.head?.or after) := by
      cases l with
      | nil => rfl
      | cons b l => rfl
    have hlast : (a :: l).getLast?.or before = l.getLast?.or (some a) := by
      cases l with
      | nil => rfl
      | cons b l => simp [List.getLast?_cons]
    rw [List.cons_append, Linked, Linked, ih, hhead, hlast]
    tauto

theorem linked_concat : Linked k before after (l ++ [a]) ↔
    Linked k before (some a) l ∧ k.prev a = l.getLast?.or before ∧ k.next a = after := by
  rw [linked_append]
  simp [Linked]

theorem linked_congr (hnext : ∀ a ∈ l, k'.next a = k.next a) (hprev : ∀ a ∈ l, k'.prev a = k.prev a) :
    Linked k' before after l ↔ Linked k before after l := by
  induction l generalizing before with
  | nil => rfl
  | cons a l ih =>
    rw [Linked, Linked, hnext a (by simp), hprev a (by simp),
      ih (fun b hb => hnext b (by simp [hb])) (fun b hb => hprev b (by simp [hb]))]

theorem Linked.map {β : Type} {f : α → β} {m : Links β} (h : Linked k before after l)
    (hnext : ∀ a ∈ l, m.next (f a) = (k.next a).map f)
    (hprev : ∀ a ∈ l, m.prev (f a) = (k.prev a).map f) :
    Linked m (before.map f) (after.map f) (l.map f) := by
  induction l generalizing before with
  | nil => trivial
  | cons a l ih =>
    obtain ⟨ha, hb, hrest⟩ := h
    refine ⟨?_, ?_, ih hrest (fun b hb => hnext b (by simp [hb])) (fun b hb => hprev b (by simp [hb]))⟩
    · rw [hprev a (by simp), ha]
    · rw [hnext a (by simp), hb]
      cases l <;> rfl

theorem Linked.prev_mem (h : Linked k before after l) (ha : a ∈ l) {b : α}
    (hb : k.prev a = some b) : b ∈ l ∨ before = some b := by
  induction l generalizing before with
  | nil => simp at ha
  | cons c l ih =>
    obtain ⟨hprev, -, hrest⟩ := h
    rcases List.mem_cons.mp ha with rfl | ha
    · exact .inr (hprev ▸ hb)
    · rcases ih hrest ha with hm | hm
      · simp [hm]
      · obtain rfl := Option.some.inj hm
        simp

theorem Linked.prev_next (h : Linked k before none l) (ha : a ∈ l) {b : α}
    (hb : k.next a = some b) : k.prev b = some a := by
  induction l generalizing before with
  | nil => simp at ha
  | cons c l ih =>
    obtain ⟨-, hnext, hrest⟩ := h
    rcases List.mem_cons.mp ha with rfl | ha
    · rw [hnext] at hb
      cases l with
      | nil => simp at hb
      | cons d l =>
        obtain rfl : d = b := by simpa using hb
        exact hrest.1
    · exact ih hrest ha

theorem Linked.next_prev (h : Linked k none after l) (ha : a ∈ l) {b : α}
    (hb : k.prev a = some b) : k.next b = some a := by
  obtain ⟨l₁, l₂, rfl⟩ := List.append_of_mem ha
  obtain ⟨hfront, hprev, -⟩ := linked_append.mp h
  rw [hb, Option.or_none] at hprev
  obtain ⟨l₁, rfl⟩ := List.getLast?_eq_some_iff.mp hprev.symm
  exact (linked_concat.mp hfront).2.2

variable [DecidableEq α]

theorem linked_setNext (h : a ∉ l) :
    Linked (k.setNext a v) before after l ↔ Linked k before after l :=
  linked_congr (fun _ hb => k.setNext_next_ne v (fun he => h (he ▸ hb))) (fun _ _ => rfl)

theorem linked_setPrev (h : a ∉ l) :
    Linked (k.setPrev a v) before after l ↔ Linked k before after l :=
  linked_congr (fun _ _ => rfl) (fun _ hb => k.setPrev_prev_ne v (fun he => h (he ▸ hb)))

theorem linked_setNext? {o : Option α} (h : ∀ a ∈ o, a ∉ l) :
    Linked (k.setNext? o v) before after l ↔ Linked k before after l := by
  cases o with
  | none => rfl
  | some a => exact linked_setNext (h a rfl)

theorem linked_setPrev? {o : Option α} (h : ∀ a ∈ o, a ∉ l) :
    Linked (k.setPrev? o v) before after l ↔ Linked k before after l := by
  cases o with
  | none => rfl
  | some a => exact linked_setPrev (h a rfl)

theorem Linked.setNext_last (h : Linked k before after l) (hl : l.Nodup) (v : Option α) :
    Linked (k.setNext? l.getLast? v) before v l := by
  rcases List.eq_nil_or_concat' l with rfl | ⟨l, a, rfl⟩
  · trivial
  · have ha : a ∉ l := fun hm => (List.nodup_append.mp hl).2.2 a hm a (by simp) rfl
    obtain ⟨hfront, hprev, -⟩ := linked_concat.mp h
    rw [List.getLast?_concat]
    exact linked_concat.mpr ⟨(linked_setNext ha).mpr hfront, hprev, k.setNext_next_self a v⟩

theorem Linked.setPrev_head (h : Linked k before after l) (hl : l.Nodup) (v : Option α) :
    Linked (k.setPrev? l.head? v) v after l := by
  cases l with
  | nil => trivial
  | cons a l =>
    obtain ⟨-, hnext, hrest⟩ := h
    exact ⟨k.setPrev_prev_self a v, hnext, (linked_setPrev (List.nodup_cons.mp hl).1).mpr hrest⟩

theorem Linked.ends (h : Linked k before after l) (hl : l.Nodup) (v w : Option α) :
    Linked ((k.setPrev? l.head? v).setNext? l.getLast? w) v w l :=
  (h.setPrev_head hl v).setNext_last hl w

theorem Linked.unlink {l₁ l₂ : List α} (h : Linked k before after (l₁ ++ a :: l₂))
    (hl : (l₁ ++ a :: l₂).Nodup) :
    Linked ((k.setNext? l₁.getLast? (l₂.head?.or after)).setPrev? l₂.head? (l₁.getLast?.or before))
      before after (l₁ ++ l₂) := by
  obtain ⟨hfront, -, -, hback⟩ := linked_append.mp h
  obtain ⟨hl₁, hl₂, hdisjoint⟩ := List.nodup_append.mp hl
  rw [List.nodup_cons] at hl₂
  apply linked_append.mpr
  constructor
  · apply (linked_setPrev? _).mpr (hfront.setNext_last hl₁ _)
    intro b hb hmem
    exact hdisjoint b hmem b (List.mem_cons_of_mem _ (List.mem_of_mem_head? hb)) rfl
  · apply ((linked_setNext? _).mpr hback).setPrev_head hl₂.2
    intro b hb hmem
    exact hdisjoint b (List.mem_of_mem_getLast? hb) b (List.mem_cons_of_mem _ hmem) rfl

end

def Circular {α : Type} (k : Links α) (l : List α) : Prop := Linked k l.getLast? l.head? l

section

variable {α : Type} {k k' : Links α} {a : α} {l l' : List α}

theorem circular_append_comm : Circular k (l ++ l') ↔ Circular k (l' ++ l) := by
  have hor (o o' : Option α) : o.or (o'.or o) = o.or o' := by
    cases o <;> cases o' <;> rfl
  rw [Circular, Circular, linked_append, linked_append]
  simp only [List.head?_append, List.getLast?_append, hor]
  exact and_comm

theorem circular_congr (hnext : ∀ a ∈ l, k'.next a = k.next a)
    (hprev : ∀ a ∈ l, k'.prev a = k.prev a) : Circular k' l ↔ Circular k l :=
  linked_congr hnext hprev

theorem circular_concat : Circular k (l ++ [a]) ↔
    Linked k (some a) (some a) l ∧ k.prev a = l.getLast?.or (some a) ∧
      k.next a = l.head?.or (some a) := by
  rw [Circular, linked_concat, List.getLast?_concat]
  cases l <;> simp

theorem Circular.head (h : Circular k (a :: l)) :
    k.next a = l.head?.or (some a) ∧ k.prev a = l.getLast?.or (some a) := by
  rw [← List.singleton_append, circular_append_comm, circular_concat] at h
  exact ⟨h.2.2, h.2.1⟩

theorem Circular.rotate {l₁ l₂ : List α} (h : Circular k (l₁ ++ a :: l₂)) :
    Circular k ((l₂ ++ l₁) ++ [a]) := by
  rw [List.append_assoc, circular_append_comm]
  simpa using h

variable [DecidableEq α]

theorem Circular.insert (h : Circular k l) (hl : l.Nodup) (hne : l ≠ []) (ha : a ∉ l) :
    Circular ((((k.setPrev? l.head? (some a)).setNext a l.head?).setPrev a l.getLast?).setNext?
      l.getLast? (some a)) (l ++ [a]) := by
  obtain ⟨first, hfirst⟩ : ∃ first, l.head? = some first := by
    cases l with
    | nil => exact absurd rfl hne
    | cons b l => exact ⟨b, rfl⟩
  obtain ⟨last, hlast⟩ : ∃ last, l.getLast? = some last :=
    ⟨l.getLast hne, List.getLast?_eq_some_getLast hne⟩
  have hlast_ne : a ≠ last := fun he => ha (he ▸ List.mem_of_mem_getLast? hlast)
  have hends := h.ends hl (some a) (some a)
  rw [hfirst, hlast] at hends ⊢
  rw [circular_concat, hfirst, hlast]
  refine ⟨(linked_congr ?_ ?_).mp hends, ?_, ?_⟩
  · intro b hb
    have hne : b ≠ a := fun he => ha (he ▸ hb)
    by_cases hb : b = last
    · subst hb
      simp [Links.setNext?]
    · simp [Links.setNext?, Links.setPrev?, Links.setNext_next_ne _ _ hb,
        Links.setNext_next_ne _ _ hne]
  · intro b hb
    have hne : b ≠ a := fun he => ha (he ▸ hb)
    exact (Function.update_of_ne hne _ _).symm
  · simp [Links.setNext?]
  · change ((((k.setPrev first (some a)).setNext a (some first)).setPrev a (some last)).setNext
      last (some a)).next a = some first
    rw [Links.setNext_next_ne _ _ hlast_ne]
    simp

theorem Circular.remove (h : Circular k (l ++ [a])) (hl : (l ++ [a]).Nodup) :
    Circular ((k.setPrev? l.head? l.getLast?).setNext? l.getLast? l.head?) l :=
  (circular_concat.mp h).1.ends (List.nodup_append.mp hl).1 _ _

end

end SystemTestSuite.Library
