import Mathlib.Data.Set.Insert
import SystemTestSuite.Library.LinkedList

/-!
The lists of the daemon, `include/common/linux_list.h`: a `struct llist_head` is an address, and a
list is the ring of its head and its entries.
-/

namespace SystemTestSuite.GsmDaemon

open Library

def llistPoison1 : ℕ := 0x00100100
def llistPoison2 : ℕ := 0x00200200

def initLlistHead (k : Links ℕ) (ptr : ℕ) : Links ℕ :=
  (k.setNext ptr (some ptr)).setPrev ptr (some ptr)

def llistAddBetween (k : Links ℕ) (new : ℕ) (prev next : Option ℕ) : Links ℕ :=
  (((k.setPrev? next (some new)).setNext new next).setPrev new prev).setNext? prev (some new)

def llistAdd (k : Links ℕ) (new head : ℕ) : Links ℕ :=
  llistAddBetween k new (some head) (k.next head)

def llistAddTail (k : Links ℕ) (new head : ℕ) : Links ℕ :=
  llistAddBetween k new (k.prev head) (some head)

def llistDelBetween (k : Links ℕ) (prev next : Option ℕ) : Links ℕ :=
  (k.setPrev? next prev).setNext? prev next

def llistDel (k : Links ℕ) (entry : ℕ) : Links ℕ :=
  ((llistDelBetween k (k.prev entry) (k.next entry)).setNext entry (some llistPoison1)).setPrev
    entry (some llistPoison2)

def llistEmpty (k : Links ℕ) (head : ℕ) : Bool := k.next head = some head

def llistForEach (k : Links ℕ) (head : ℕ) : ℕ → Option ℕ → Option (List ℕ)
  | 0, _ => none
  | _ + 1, none => none
  | rounds + 1, some pos =>
    if pos = head then some []
    else (llistForEach k head rounds (k.next pos)).map (pos :: ·)

/-- The loop of `llist_for_each_entry_safe` at `pos`, where `n` was read before the body of the last
round ran; a body changes the state. -/
def llistForEachSafe {σ : Type} (links : σ → Links ℕ) (body : ℕ → σ → σ) (head : ℕ) :
    ℕ → Option ℕ → Option ℕ → σ → Option σ
  | 0, _, _, _ => none
  | _ + 1, none, _, _ => none
  | rounds + 1, some pos, n, s =>
    if pos = head then some s
    else
      let s := body pos s
      llistForEachSafe links body head rounds n (n.bind (links s).next) s

structure Lists where
  heads : Set ℕ
  entries : ℕ → List ℕ

def Lists.Uses (s : Lists) (a : ℕ) : Prop := ∃ head ∈ s.heads, a ∈ head :: s.entries head

def Lists.set (s : Lists) (head : ℕ) (l : List ℕ) : Lists where
  heads := insert head s.heads
  entries := Function.update s.entries head l

structure Lists.Holds (s : Lists) (k : Links ℕ) : Prop where
  ring : ∀ head ∈ s.heads, Circular k (head :: s.entries head)
  nodup : ∀ head ∈ s.heads, (head :: s.entries head).Nodup
  disjoint : ∀ head ∈ s.heads, ∀ head' ∈ s.heads, ∀ a ∈ head :: s.entries head,
    a ∈ head' :: s.entries head' → head = head'

inductive LlistOp
  | init (head : ℕ)
  | add (new head : ℕ)
  | addTail (new head : ℕ)
  | del (entry : ℕ)

def LlistOp.run (k : Links ℕ) : LlistOp → Links ℕ
  | .init head => initLlistHead k head
  | .add new head => llistAdd k new head
  | .addTail new head => llistAddTail k new head
  | .del entry => llistDel k entry

def LlistOp.lists (s : Lists) : LlistOp → Lists
  | .init head => s.set head []
  | .add new head => s.set head (new :: s.entries head)
  | .addTail new head => s.set head (s.entries head ++ [new])
  | .del entry => { s with entries := fun head => (s.entries head).erase entry }

/-- What an operation is used for: a record that is in no list goes into one, one of a list goes. -/
def LlistOp.Valid (s : Lists) : LlistOp → Prop
  | .init head => ¬ s.Uses head
  | .add new head => head ∈ s.heads ∧ ¬ s.Uses new
  | .addTail new head => head ∈ s.heads ∧ ¬ s.Uses new
  | .del entry => ∃ head ∈ s.heads, entry ∈ s.entries head

inductive LlistRun : Lists → Links ℕ → List LlistOp → Lists → Links ℕ → Prop
  | nil (s k) : LlistRun s k [] s k
  | cons {s k op ops s' k'} : op.Valid s → LlistRun (op.lists s) (op.run k) ops s' k' →
      LlistRun s k (op :: ops) s' k'

section

variable {s s' : Lists} {k k' : Links ℕ} {head a : ℕ} {l : List ℕ}

theorem Lists.not_uses (h : ¬ s.Uses a) (hhead : head ∈ s.heads) : a ∉ head :: s.entries head :=
  fun ha => h ⟨head, hhead, ha⟩

theorem Lists.Holds.set (hs : s.Holds k) (hold : head ∈ s.heads)
    (hsame : ∀ b, b ∉ head :: s.entries head → b ≠ a → k'.next b = k.next b ∧ k'.prev b = k.prev b)
    (ha : a ∈ s.entries head ∨ ¬ s.Uses a) (hring : Circular k' (head :: l))
    (hnodup : (head :: l).Nodup) (hsub : ∀ b ∈ l, b ∈ s.entries head ∨ b = a) :
    (s.set head l).Holds k' := by
  -- a record of another ring is none of those written
  have hother : ∀ other ∈ s.heads, other ≠ head → ∀ b ∈ other :: s.entries other,
      b ∉ head :: s.entries head ∧ b ≠ a := by
    intro other hother hne b hb
    have hout : b ∉ head :: s.entries head :=
      fun hmem => hne (hs.disjoint other hother head hold b hb hmem)
    refine ⟨hout, ?_⟩
    rintro rfl
    rcases ha with ha | ha
    · exact hout (List.mem_cons_of_mem _ ha)
    · exact ha ⟨other, hother, hb⟩
  have hnew : ∀ b ∈ head :: l, b ∈ head :: s.entries head ∨ b = a := by
    intro b hb
    rcases List.mem_cons.mp hb with rfl | hb
    · simp
    · rcases hsub b hb with hb | hb
      · simp [hb]
      · exact .inr hb
  have hheads : ∀ other ∈ (s.set head l).heads, other ∈ s.heads := by
    rintro other (rfl | hmem)
    · exact hold
    · exact hmem
  have hentries (other : ℕ) (hne : other ≠ head) :
      (s.set head l).entries other = s.entries other := Function.update_of_ne hne ..
  have hself : (s.set head l).entries head = l := Function.update_self ..
  constructor
  · intro other hmem
    by_cases hne : other = head
    · rw [hne, hself]
      exact hring
    · rw [hentries other hne]
      have hout := hother other (hheads other hmem) hne
      apply (circular_congr _ _).mpr (hs.ring other (hheads other hmem))
      · exact fun b hb => (hsame b (hout b hb).1 (hout b hb).2).1
      · exact fun b hb => (hsame b (hout b hb).1 (hout b hb).2).2
  · intro other hmem
    by_cases hne : other = head
    · rw [hne, hself]
      exact hnodup
    · rw [hentries other hne]
      exact hs.nodup other (hheads other hmem)
  · intro other hmem other' hmem' b hb hb'
    by_cases hne : other = head <;> by_cases hne' : other' = head
    · rw [hne, hne']
    · rw [hne, hself] at hb
      rw [hentries other' hne'] at hb'
      obtain ⟨hout, hneb⟩ := hother other' (hheads other' hmem') hne' b hb'
      rcases hnew b hb with hb | hb
      · exact absurd hb hout
      · exact absurd hb hneb
    · rw [hne', hself] at hb'
      rw [hentries other hne] at hb
      obtain ⟨hout, hneb⟩ := hother other (hheads other hmem) hne b hb
      rcases hnew b hb' with hb' | hb'
      · exact absurd hb' hout
      · exact absurd hb' hneb
    · rw [hentries other hne] at hb
      rw [hentries other' hne'] at hb'
      exact hs.disjoint other (hheads other hmem) other' (hheads other' hmem') b hb hb'

theorem initLlistHead_circular (k : Links ℕ) (head : ℕ) :
    Circular (initLlistHead k head) [head] := by
  simp [Circular, Linked, initLlistHead]

theorem initLlistHead_same {b : ℕ} (h : b ≠ head) :
    (initLlistHead k head).next b = k.next b ∧ (initLlistHead k head).prev b = k.prev b :=
  ⟨k.setNext_next_ne _ h, (k.setNext _ _).setPrev_prev_ne _ h⟩

theorem llistAddBetween_circular {prev next : Option ℕ} (h : Circular k l) (hl : l.Nodup)
    (hne : l ≠ []) (ha : a ∉ l) (hprev : prev = l.getLast?) (hnext : next = l.head?) :
    Circular (llistAddBetween k a prev next) (l ++ [a]) := by
  rw [hprev, hnext]
  exact h.insert hl hne ha

theorem llistAddBetween_same {prev next : Option ℕ} {b : ℕ} (hb : b ≠ a) (hprev : prev ≠ some b)
    (hnext : next ≠ some b) :
    (llistAddBetween k a prev next).next b = k.next b ∧
      (llistAddBetween k a prev next).prev b = k.prev b := by
  constructor
  · rw [llistAddBetween, Links.setNext?_next_ne _ _ hprev, Links.setPrev_next,
      Links.setNext_next_ne _ _ hb, Links.setPrev?_next]
  · rw [llistAddBetween, Links.setNext?_prev, Links.setPrev_prev_ne _ _ hb, Links.setNext_prev,
      Links.setPrev?_prev_ne _ _ hnext]

theorem llistDelBetween_same {prev next : Option ℕ} {b : ℕ} (hprev : prev ≠ some b)
    (hnext : next ≠ some b) : (llistDelBetween k prev next).next b = k.next b ∧
      (llistDelBetween k prev next).prev b = k.prev b := by
  constructor
  · rw [llistDelBetween, Links.setNext?_next_ne _ _ hprev, Links.setPrev?_next]
  · rw [llistDelBetween, Links.setNext?_prev, Links.setPrev?_prev_ne _ _ hnext]

theorem ne_some_of_not_mem {o : Option ℕ} {b : ℕ} (ho : o = l.head?.or (some head) ∨
    o = l.getLast?.or (some head)) (hb : b ∉ head :: l) : o ≠ some b := by
  rintro rfl
  rcases ho with ho | ho
  · cases hh : l.head? with
    | none => simp_all
    | some c =>
      rw [hh] at ho
      obtain rfl : b = c := by simpa using ho
      exact hb (List.mem_cons_of_mem _ (List.mem_of_mem_head? hh))
  · cases hh : l.getLast? with
    | none => simp_all
    | some c =>
      rw [hh] at ho
      obtain rfl : b = c := by simpa using ho
      exact hb (List.mem_cons_of_mem _ (List.mem_of_mem_getLast? hh))

theorem Lists.Holds.add (hs : s.Holds k) (hhead : head ∈ s.heads) (ha : ¬ s.Uses a) :
    (s.set head (a :: s.entries head)).Holds (llistAdd k a head) := by
  have hout := Lists.not_uses ha hhead
  have hring := hs.ring head hhead
  have hnodup := hs.nodup head hhead
  have hnext := hring.head.1
  apply hs.set (a := a) hhead
  · intro b hb hne
    apply llistAddBetween_same hne
    · exact fun he => hb (by simp [Option.some.inj he])
    · exact ne_some_of_not_mem (.inl hnext) hb
  · exact .inr ha
  · -- the ring from the first entry on ends with the head
    have hturned : Circular k (s.entries head ++ [head]) := circular_append_comm.mp hring
    have hadd := @llistAddBetween_circular k a _ (some head) (k.next head)
      hturned ((List.perm_append_singleton ..).nodup_iff.mpr hnodup) (by simp)
      (by simpa [or_comm] using hout) (by simp) (by rw [hnext, List.head?_append]; rfl)
    rw [List.append_assoc, circular_append_comm] at hadd
    exact hadd
  · rw [List.nodup_cons] at hnodup ⊢
    simp only [List.mem_cons, not_or] at hout ⊢
    exact ⟨⟨Ne.symm hout.1, hnodup.1⟩, List.nodup_cons.mpr ⟨hout.2, hnodup.2⟩⟩
  · intro b hb
    rcases List.mem_cons.mp hb with hb | hb
    · exact .inr hb
    · exact .inl hb

theorem Lists.Holds.addTail (hs : s.Holds k) (hhead : head ∈ s.heads) (ha : ¬ s.Uses a) :
    (s.set head (s.entries head ++ [a])).Holds (llistAddTail k a head) := by
  have hout := Lists.not_uses ha hhead
  have hring := hs.ring head hhead
  have hnodup := hs.nodup head hhead
  have hprev := hring.head.2
  apply hs.set (a := a) hhead
  · intro b hb hne
    apply llistAddBetween_same hne
    · exact ne_some_of_not_mem (.inr hprev) hb
    · exact fun he => hb (by simp [Option.some.inj he])
  · exact .inr ha
  · apply llistAddBetween_circular hring hnodup (by simp) hout
    · rw [hprev, List.getLast?_cons]
      cases (s.entries head).getLast? <;> rfl
    · rfl
  · exact (List.perm_append_singleton ..).nodup_iff.mpr (List.nodup_cons.mpr ⟨hout, hnodup⟩)
  · intro b hb
    simpa using hb

theorem Lists.Holds.del (hs : s.Holds k) (hhead : head ∈ s.heads) (ha : a ∈ s.entries head) :
    (s.set head ((s.entries head).erase a)).Holds (llistDel k a) := by
  have hring := hs.ring head hhead
  have hnodup := hs.nodup head hhead
  obtain ⟨l₁, l₂, hl⟩ := List.append_of_mem ha
  have hmid : (l₁ ++ a :: l₂).Nodup := hl ▸ (List.nodup_cons.mp hnodup).2
  have hnot : a ∉ l₁ := fun hm => (List.nodup_append.mp hmid).2.2 a hm a (by simp) rfl
  have herase : (s.entries head).erase a = l₁ ++ l₂ := by
    rw [hl, List.erase_append_right _ hnot, List.erase_cons_head]
  rw [herase]
  rw [hl] at hring hnodup
  -- the ring written so that the entry to delete is its last record
  have hturned : Circular k ((l₂ ++ head :: l₁) ++ [a]) :=
    @Circular.rotate _ k a (head :: l₁) l₂ hring
  have hperm : ((l₂ ++ head :: l₁) ++ [a]).Perm (head :: (l₁ ++ a :: l₂)) := by
    have hback : (l₂ ++ head :: l₁ ++ [a]).Perm (a :: (l₂ ++ head :: l₁)) :=
      List.perm_append_singleton ..
    have hcomm : (a :: l₂ ++ head :: l₁).Perm (head :: l₁ ++ a :: l₂) := List.perm_append_comm
    exact hback.trans hcomm
  have hturned_nodup := hperm.nodup_iff.mpr hnodup
  obtain ⟨hrest_nodup, -, hdisjoint⟩ := List.nodup_append.mp hturned_nodup
  have hout : a ∉ l₂ ++ head :: l₁ := fun hm => hdisjoint a hm a (by simp) rfl
  obtain ⟨-, hprev, hnext⟩ := circular_concat.mp hturned
  have hremoved := hturned.remove hturned_nodup
  obtain ⟨first, hfirst⟩ : ∃ first, (l₂ ++ head :: l₁).head? = some first := by
    cases l₂ <;> simp
  obtain ⟨last, hlast⟩ : ∃ last, (l₂ ++ head :: l₁).getLast? = some last := by
    simp [List.getLast?_cons]
  rw [hfirst, Option.some_or] at hnext
  rw [hlast, Option.some_or] at hprev
  rw [hfirst, hlast] at hremoved
  apply hs.set (a := a) hhead
  · intro b hb hne
    rw [hl] at hb
    have hmem : b ∉ l₂ ++ head :: l₁ := by
      intro hm
      exact hb (hperm.mem_iff.mp (List.mem_append_left _ hm))
    have hsame := @llistDelBetween_same k (k.prev a) (k.next a) b
      (by rw [hprev]; exact fun he => hmem (Option.some.inj he ▸ List.mem_of_mem_getLast? hlast))
      (by rw [hnext]; exact fun he => hmem (Option.some.inj he ▸ List.mem_of_mem_head? hfirst))
    constructor
    · rw [llistDel, Links.setPrev_next, Links.setNext_next_ne _ _ hne]
      exact hsame.1
    · rw [llistDel, Links.setPrev_prev_ne _ _ hne, Links.setNext_prev]
      exact hsame.2
  · exact .inl ha
  · have hring' : Circular (llistDel k a) (l₂ ++ head :: l₁) := by
      apply (circular_congr _ _).mpr hremoved
      · intro b hb
        rw [llistDel, Links.setPrev_next, Links.setNext_next_ne _ _ (ne_of_mem_of_not_mem hb hout),
          hprev, hnext]
        rfl
      · intro b hb
        rw [llistDel, Links.setPrev_prev_ne _ _ (ne_of_mem_of_not_mem hb hout), Links.setNext_prev,
          hprev, hnext]
        rfl
    rw [circular_append_comm] at hring'
    simpa using hring'
  · have hperm' : (head :: (l₁ ++ l₂)).Perm (l₂ ++ head :: l₁) :=
      @List.perm_append_comm _ (head :: l₁) l₂
    exact hperm'.nodup_iff.mpr hrest_nodup
  · intro b hb
    rw [hl]
    exact .inl (by simp only [List.mem_append, List.mem_cons] at hb ⊢; tauto)

theorem Lists.Holds.init (hs : s.Holds k) (ha : ¬ s.Uses a) :
    (s.set a []).Holds (initLlistHead k a) := by
  have hne : ∀ head ∈ s.heads, head ≠ a := fun head hm he => ha ⟨head, hm, by simp [he]⟩
  have hold {head : ℕ} (hm : head ∈ s.heads) : (s.set a []).entries head = s.entries head :=
    Function.update_of_ne (hne head hm) ..
  have hself : (s.set a []).entries a = [] := Function.update_self ..
  constructor
  · rintro head (rfl | hm)
    · rw [hself]
      exact initLlistHead_circular k head
    · rw [hold hm]
      have hout := Lists.not_uses ha hm
      apply (circular_congr _ _).mpr (hs.ring head hm)
      · exact fun b hb => (initLlistHead_same (ne_of_mem_of_not_mem hb hout)).1
      · exact fun b hb => (initLlistHead_same (ne_of_mem_of_not_mem hb hout)).2
  · rintro head (rfl | hm)
    · rw [hself]
      exact List.nodup_singleton _
    · rw [hold hm]
      exact hs.nodup head hm
  · rintro head (rfl | hm) head' (rfl | hm') b hb hb'
    · rfl
    · rw [hself, List.mem_singleton] at hb
      rw [hold hm', hb] at hb'
      exact absurd hb' (Lists.not_uses ha hm')
    · rw [hself, List.mem_singleton] at hb'
      rw [hold hm, hb'] at hb
      exact absurd hb (Lists.not_uses ha hm)
    · rw [hold hm] at hb
      rw [hold hm'] at hb'
      exact hs.disjoint head hm head' hm' b hb hb'

theorem Lists.set_of_mem (hhead : head ∈ s.heads) :
    s.set head l = { s with entries := Function.update s.entries head l } := by
  rw [Lists.set, Set.insert_eq_of_mem hhead]

theorem Lists.Holds.step {op : LlistOp} (hs : s.Holds k) (hop : op.Valid s) :
    (op.lists s).Holds (op.run k) := by
  cases op with
  | init head => exact hs.init hop
  | add new head => exact hs.add hop.1 hop.2
  | addTail new head => exact hs.addTail hop.1 hop.2
  | del entry =>
    obtain ⟨head, hhead, hmem⟩ := hop
    have hdel := hs.del hhead hmem
    rw [Lists.set_of_mem hhead] at hdel
    -- the entry is in no other list
    have hall (other : ℕ) (ho : other ∈ s.heads) : (s.entries other).erase entry =
        Function.update s.entries head ((s.entries head).erase entry) other := by
      by_cases he : other = head
      · rw [he, Function.update_self]
      · rw [Function.update_of_ne he, List.erase_of_not_mem]
        intro hm
        exact he (hs.disjoint other ho head hhead entry (List.mem_cons_of_mem _ hm)
          (List.mem_cons_of_mem _ hmem))
    constructor
    · intro other ho
      change Circular _ (other :: (s.entries other).erase entry)
      rw [hall other ho]
      exact hdel.ring other ho
    · intro other ho
      change (other :: (s.entries other).erase entry).Nodup
      rw [hall other ho]
      exact hdel.nodup other ho
    · intro other ho other' ho' b hb hb'
      change b ∈ other :: (s.entries other).erase entry at hb
      change b ∈ other' :: (s.entries other').erase entry at hb'
      rw [hall other ho] at hb
      rw [hall other' ho'] at hb'
      exact hdel.disjoint other ho other' ho' b hb hb'

theorem Lists.Holds.run {ops : List LlistOp} (hs : s.Holds k) (hr : LlistRun s k ops s' k') :
    s'.Holds k' := by
  induction hr with
  | nil s k => exact hs
  | cons hop _ ih => exact ih (hs.step hop)

theorem llistForEach_linked {rounds : ℕ} (h : Linked k (some a) (some head) l)
    (hhead : head ∉ l) (hrounds : l.length < rounds) :
    llistForEach k head rounds (l.head?.or (some head)) = some l := by
  induction l generalizing a rounds with
  | nil =>
    obtain ⟨rounds, rfl⟩ := Nat.exists_eq_add_one_of_ne_zero (Nat.ne_of_gt hrounds)
    simp [llistForEach]
  | cons b l ih =>
    obtain ⟨rounds, rfl⟩ := Nat.exists_eq_add_one_of_ne_zero (Nat.ne_zero_of_lt hrounds)
    obtain ⟨-, hnext, hrest⟩ := h
    rw [List.mem_cons, not_or] at hhead
    rw [List.head?_cons, Option.some_or, llistForEach, if_neg (Ne.symm hhead.1), hnext,
      ih hrest hhead.2 (by simpa using hrounds), Option.map_some]

theorem Lists.Holds.linked (hs : s.Holds k) (hhead : head ∈ s.heads) :
    Linked k (some head) (some head) (s.entries head) := by
  have hring := hs.ring head hhead
  rw [← List.singleton_append, circular_append_comm] at hring
  exact (circular_concat.mp hring).1

/-- Whatever lists are made and changed, in every order, `llist_for_each` finds the entries of each
list in their order and `llist_empty` tells the empty ones. -/
theorem llist_runs {ops : List LlistOp} (hs : s.Holds k) (hr : LlistRun s k ops s' k') :
    s'.Holds k' ∧ ∀ head ∈ s'.heads,
      (∀ rounds, (s'.entries head).length < rounds →
        llistForEach k' head rounds (k'.next head) = some (s'.entries head)) ∧
      (llistEmpty k' head = true ↔ s'.entries head = []) := by
  have hholds := hs.run hr
  refine ⟨hholds, fun head hhead => ⟨fun rounds hrounds => ?_, ?_⟩⟩
  · rw [(hholds.ring head hhead).head.1]
    exact llistForEach_linked (hholds.linked hhead)
      (List.nodup_cons.mp (hholds.nodup head hhead)).1 hrounds
  · rw [llistEmpty, decide_eq_true_eq, (hholds.ring head hhead).head.1]
    have hnot := (List.nodup_cons.mp (hholds.nodup head hhead)).1
    cases hl : s'.entries head with
    | nil => simp
    | cons b l =>
      rw [hl] at hnot
      simp only [List.mem_cons, not_or] at hnot
      simp [Ne.symm hnot.1]

def noLists : Lists := ⟨∅, fun _ => []⟩

def freshLinks : Links ℕ := ⟨fun _ => none, fun _ => none⟩

theorem noLists_holds : noLists.Holds freshLinks where
  ring := by simp [noLists]
  nodup := by simp [noLists]
  disjoint := by simp [noLists]

def threeOps : List LlistOp := [.init 0, .addTail 1 0, .add 2 0, .del 1]

theorem threeOps_run : LlistRun noLists freshLinks threeOps
    (threeOps.foldl LlistOp.lists noLists) (threeOps.foldl LlistOp.run freshLinks) := by
  refine .cons ?_ (.cons ?_ (.cons ?_ (.cons ?_ (.nil _ _))))
  · simp [LlistOp.Valid, Lists.Uses, noLists]
  · simp [LlistOp.Valid, LlistOp.lists, Lists.set, Lists.Uses, noLists]
  · simp [LlistOp.Valid, LlistOp.lists, Lists.set, Lists.Uses, noLists]
  · simp [LlistOp.Valid, LlistOp.lists, Lists.set, noLists]

theorem llist_runs_three : llistForEach (threeOps.foldl LlistOp.run freshLinks) 0 2
    ((threeOps.foldl LlistOp.run freshLinks).next 0) = some [2] :=
  ((llist_runs noLists_holds threeOps_run).2 0 (by
    simp [threeOps, LlistOp.lists, Lists.set])).1 2 (by decide)

def HoldsList (k : Links ℕ) (head : ℕ) (l : List ℕ) : Prop :=
  Circular k (head :: l) ∧ (head :: l).Nodup

theorem holdsList_iff : HoldsList k head l ↔ (⟨{head}, fun _ => l⟩ : Lists).Holds k := by
  constructor
  · rintro ⟨hring, hnodup⟩
    constructor
    · rintro _ rfl
      exact hring
    · rintro _ rfl
      exact hnodup
    · rintro _ rfl _ rfl _ _ _
      rfl
  · exact fun h => ⟨h.ring head rfl, h.nodup head rfl⟩

theorem HoldsList.of_set {l' : List ℕ} (h : ((⟨{head}, fun _ => l⟩ : Lists).set head l').Holds k) :
    HoldsList k head l' := by
  have hself : ((⟨{head}, fun _ => l⟩ : Lists).set head l').entries head = l' :=
    Function.update_self ..
  have hring := h.ring head (.inl rfl)
  have hnodup := h.nodup head (.inl rfl)
  rw [hself] at hring hnodup
  exact ⟨hring, hnodup⟩

theorem HoldsList.addTail (h : HoldsList k head l) (ha : a ∉ head :: l) :
    HoldsList (llistAddTail k a head) head (l ++ [a]) := by
  apply HoldsList.of_set ((holdsList_iff.mp h).addTail rfl _)
  rintro ⟨_, rfl, hmem⟩
  exact ha hmem

theorem HoldsList.del (h : HoldsList k head l) (ha : a ∈ l) :
    HoldsList (llistDel k a) head (l.erase a) :=
  HoldsList.of_set ((holdsList_iff.mp h).del rfl ha)

theorem HoldsList.first (h : HoldsList k head l) : k.next head = l.head?.or (some head) :=
  h.1.head.1

theorem HoldsList.forEach (h : HoldsList k head l) {rounds : ℕ} (hrounds : l.length < rounds) :
    llistForEach k head rounds (k.next head) = some l := by
  rw [h.first]
  exact llistForEach_linked ((holdsList_iff.mp h).linked rfl) (List.nodup_cons.mp h.2).1 hrounds

theorem HoldsList.unique {l' : List ℕ} (h : HoldsList k head l) (h' : HoldsList k head l') :
    l = l' := by
  have hl := @HoldsList.forEach k head l h (l.length + l'.length + 1) (by omega)
  rw [h'.forEach (by omega)] at hl
  exact (Option.some.inj hl).symm

theorem HoldsList.next {l₁ l₂ : List ℕ} (h : HoldsList k head (l₁ ++ a :: l₂)) :
    k.next a = l₂.head?.or (some head) :=
  (linked_append.mp ((holdsList_iff.mp h).linked rfl)).2.2.1

/-- `llist_for_each_entry_safe` with an invariant over the entries that were visited and those still
to visit. A body may take its own entry off and may put entries behind the others; those are visited
too, unless it is the last entry that puts them there. -/
theorem llistForEachSafe_rule {σ : Type} (links : σ → Links ℕ) (body : ℕ → σ → σ) (head : ℕ)
    (Inv : List ℕ → List ℕ → σ → Prop) (bound : ℕ)
    (hlist : ∀ done todo s, Inv done todo s → head ∉ todo ∧
      ∀ a rest, todo = a :: rest → (links s).next a = rest.head?.or (some head))
    (hbound : ∀ done todo s, Inv done todo s → done.length + todo.length ≤ bound)
    (hbody : ∀ done a todo s, Inv done (a :: todo) s →
      ∃ new, (todo = [] → new = []) ∧ Inv (done ++ [a]) (todo ++ new) (body a s))
    {done todo : List ℕ} {s : σ} (h : Inv done todo s) (rounds : ℕ) (n : Option ℕ)
    (hrounds : bound < done.length + rounds)
    (hn : ∀ a rest, todo = a :: rest → n = rest.head?.or (some head)) :
    ∃ done' s', llistForEachSafe links body head rounds (todo.head?.or (some head)) n s = some s' ∧
      Inv done' [] s' := by
  induction rounds generalizing done todo s n with
  | zero => exact absurd (hbound done todo s h) (by omega)
  | succ rounds ih =>
    cases todo with
    | nil => exact ⟨done, s, by simp [llistForEachSafe], h⟩
    | cons a todo =>
      obtain ⟨new, hnew, hinv⟩ := hbody done a todo s h
      have hne : a ≠ head := fun he => (hlist done (a :: todo) s h).1 (by simp [he])
      obtain rfl := hn a todo rfl
      rw [List.head?_cons, Option.some_or, llistForEachSafe, if_neg hne]
      -- the entry behind was read before, and new ones come after it
      have hpos : todo.head?.or (some head) = (todo ++ new).head?.or (some head) := by
        cases todo with
        | nil => rw [hnew rfl]; rfl
        | cons b todo => rfl
      rw [hpos]
      apply ih hinv
      · simp only [List.length_append, List.length_singleton]
        omega
      · intro b rest hb
        rw [hb, List.head?_cons, Option.some_or]
        exact (hlist _ _ _ hinv).2 b rest hb

end

end SystemTestSuite.GsmDaemon
