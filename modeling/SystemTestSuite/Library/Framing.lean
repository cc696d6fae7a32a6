import SystemTestSuite.Library.Memory

/-!
Packets one after the other in a byte stream, which is read in chunks that need not end where a
packet ends.
-/

namespace SystemTestSuite.Library

theorem flatten_length_le {as bs : List Bytes} (h : as.Sublist bs) :
    as.flatten.length ≤ bs.flatten.length := by
  induction h with
  | slnil => exact le_refl _
  | cons b _ ih =>
    rw [List.flatten_cons, List.length_append]
    omega
  | cons_cons b _ ih =>
    simp only [List.flatten_cons, List.length_append]
    omega

theorem sublist_eq_of_length {as bs : List Bytes} (h : as.Sublist bs) (hne : ∀ b ∈ bs, b ≠ [])
    (hlen : bs.flatten.length ≤ as.flatten.length) : as = bs := by
  induction h with
  | slnil => rfl
  | @cons as bs b hsub ih =>
    have hb : 0 < b.length := List.length_pos_of_ne_nil (hne b (by simp))
    have hle := flatten_length_le hsub
    rw [List.flatten_cons, List.length_append] at hlen
    omega
  | @cons_cons as bs b hsub ih =>
    simp only [List.flatten_cons, List.length_append] at hlen
    rw [ih (fun c hc => hne c (by simp [hc])) (by omega)]

structure Framing (P : Type) where
  encode : P → Bytes
  next : Bytes → Option (P × Bytes)
  encode_pos : ∀ p, 0 < (encode p).length
  next_encode : ∀ p rest, next (encode p ++ rest) = some (p, rest)
  next_some : ∀ {bs p rest}, next bs = some (p, rest) → bs = encode p ++ rest

namespace Framing

variable {P : Type} {F : Framing P} {ps qs : List P} {bs c : Bytes} {cs : List Bytes}

def encodeAll (F : Framing P) (ps : List P) : Bytes := ps.flatMap F.encode

def split (F : Framing P) (bs : Bytes) : List P :=
  match _h : F.next bs with
  | none => []
  | some (p, rest) => p :: split F rest
termination_by bs.length
decreasing_by
  have hpos := F.encode_pos p
  rw [F.next_some _h, List.length_append]
  omega

def Whole (F : Framing P) (bs : Bytes) : Prop := F.encodeAll (F.split bs) = bs

instance (F : Framing P) (bs : Bytes) : Decidable (F.Whole bs) :=
  inferInstanceAs (Decidable (_ = _))

@[simp] theorem encodeAll_nil : F.encodeAll [] = [] := rfl

@[simp] theorem encodeAll_cons (p : P) : F.encodeAll (p :: ps) = F.encode p ++ F.encodeAll ps := rfl

@[simp] theorem encodeAll_append : F.encodeAll (ps ++ qs) = F.encodeAll ps ++ F.encodeAll qs :=
  List.flatMap_append

theorem split_none (h : F.next bs = none) : F.split bs = [] := by
  rw [split]
  split
  · rfl
  · next heq => simp [h] at heq

theorem split_some {p : P} {rest : Bytes} (h : F.next bs = some (p, rest)) :
    F.split bs = p :: F.split rest := by
  rw [split]
  split
  · next heq => simp [h] at heq
  · next heq =>
    rw [h, Option.some.injEq, Prod.mk.injEq] at heq
    obtain ⟨rfl, rfl⟩ := heq
    rfl

theorem next_nil : F.next [] = none := by
  cases h : F.next [] with
  | none => rfl
  | some r =>
    have hpos := F.encode_pos r.1
    have hnil := congrArg List.length (F.next_some h)
    rw [List.length_append, List.length_nil] at hnil
    omega

@[simp] theorem split_nil : F.split [] = [] := split_none next_nil

theorem split_encodeAll (ps : List P) (rest : Bytes) :
    F.split (F.encodeAll ps ++ rest) = ps ++ F.split rest := by
  induction ps with
  | nil => rfl
  | cons p ps ih =>
    rw [encodeAll_cons, List.append_assoc, split_some (F.next_encode p _), ih]
    rfl

theorem split_encodeAll_nil (ps : List P) : F.split (F.encodeAll ps) = ps := by
  simpa using split_encodeAll (F := F) ps []

theorem encodeAll_injective (h : F.encodeAll ps = F.encodeAll qs) : ps = qs := by
  rw [← split_encodeAll_nil (F := F) ps, h, split_encodeAll_nil]

theorem encodeAll_split_isPrefix (bs : Bytes) : F.encodeAll (F.split bs) <+: bs := by
  fun_induction split F bs with
  | case1 bs h => exact List.nil_prefix
  | case2 bs p rest h ih =>
    rw [F.next_some h, encodeAll_cons]
    exact List.prefix_append_right_inj _ |>.mpr ih

theorem split_longest (h : F.encodeAll qs <+: bs) : qs <+: F.split bs := by
  obtain ⟨rest, rfl⟩ := h
  rw [split_encodeAll]
  exact List.prefix_append _ _

theorem whole_encodeAll (ps : List P) : F.Whole (F.encodeAll ps) :=
  congrArg F.encodeAll (split_encodeAll_nil ps)

theorem whole_some {p : P} {rest : Bytes} (h : F.next bs = some (p, rest)) :
    F.Whole bs ↔ F.Whole rest := by
  rw [Whole, Whole, split_some h, encodeAll_cons, F.next_some h, List.append_cancel_left_eq]

theorem whole_none (h : F.next bs = none) : F.Whole bs ↔ bs = [] := by
  rw [Whole, split_none h]
  exact eq_comm

theorem whole_iff_length : F.Whole bs ↔ bs.length ≤ (F.encodeAll (F.split bs)).length := by
  constructor
  · exact fun h => (congrArg List.length h).ge
  · exact fun h => (encodeAll_split_isPrefix bs).eq_of_length_le h

theorem encodeAll_flatMap_split (cs : List Bytes) :
    (F.encodeAll (cs.flatMap F.split)).length ≤ cs.flatten.length := by
  induction cs with
  | nil => simp
  | cons c cs ih =>
    have hc := (encodeAll_split_isPrefix (F := F) c).length_le
    simp only [List.flatMap_cons, encodeAll_append, List.length_append, List.flatten_cons]
    omega

theorem encodeAll_flatMap_whole (h : ∀ c ∈ cs, F.Whole c) :
    F.encodeAll (cs.flatMap F.split) = cs.flatten := by
  induction cs with
  | nil => rfl
  | cons c cs ih =>
    rw [List.flatMap_cons, encodeAll_append, h c (by simp), ih (fun c hc => h c (by simp [hc])),
      List.flatten_cons]

theorem whole_of_length (h : cs.flatten.length ≤ (F.encodeAll (cs.flatMap F.split)).length) :
    ∀ c ∈ cs, F.Whole c := by
  induction cs with
  | nil => simp
  | cons c cs ih =>
    have hc := (encodeAll_split_isPrefix (F := F) c).length_le
    have hcs := encodeAll_flatMap_split (F := F) cs
    simp only [List.flatMap_cons, encodeAll_append, List.length_append, List.flatten_cons] at h
    intro c' hmem
    rcases List.mem_cons.mp hmem with rfl | hmem
    · exact whole_iff_length.mpr (by omega)
    · exact ih (by omega) c' hmem

theorem exists_left {rest : Bytes} (h : F.encodeAll ps = F.encodeAll qs ++ rest) :
    ∃ left, ps = qs ++ left ∧ rest = F.encodeAll left := by
  have hps : ps = qs ++ F.split rest := by
    rw [← split_encodeAll_nil (F := F) ps, h, split_encodeAll]
  rw [hps, encodeAll_append, List.append_cancel_left_eq] at h
  exact ⟨F.split rest, hps, h.symm⟩

/-- Chunks taken apart on their own give the packets of the stream exactly when each ends where a
packet ends. -/
theorem flatMap_split_iff (h : cs.flatten = F.encodeAll ps) :
    cs.flatMap F.split = ps ↔ ∀ c ∈ cs, F.Whole c := by
  constructor
  · intro hsplit
    apply whole_of_length
    rw [hsplit, h]
  · intro hwhole
    apply encodeAll_injective (F := F)
    rw [encodeAll_flatMap_whole hwhole, h]

end Framing

end SystemTestSuite.Library
