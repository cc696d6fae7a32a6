import Mathlib.Data.List.Nodup
import Mathlib.Data.Set.Insert
import Mathlib.Logic.Equiv.Basic
import Mathlib.Logic.Relation
import Mathlib.Order.WellFounded

/-!
Forests whose nodes have their children in an order: what may be done to one is what leaves every
node with one parent and no node under itself.
-/

namespace SystemTestSuite.Library

open Relation

structure Forest (α : Type) where
  nodes : Set α
  kids : α → List α
  kid_mem : ∀ p a, a ∈ kids p → p ∈ nodes ∧ a ∈ nodes
  nodup : ∀ p, (kids p).Nodup
  one_parent : ∀ p q a, a ∈ kids p → a ∈ kids q → p = q
  founded : WellFounded (fun a p => a ∈ kids p)

namespace Forest

variable {α : Type} {F G : Forest α} {a b c p q x : α} {roots nodes below : List α}

@[ext]
theorem ext (hnodes : F.nodes = G.nodes) (hkids : F.kids = G.kids) : F = G := by
  cases F
  cases G
  simp_all

def empty : Forest α where
  nodes := ∅
  kids _ := []
  kid_mem := by simp
  nodup := by simp
  one_parent := by simp
  founded := ⟨fun a => ⟨a, by simp⟩⟩

def Under (F : Forest α) (x a : α) : Prop := ReflTransGen (fun b p => b ∈ F.kids p) x a

def IsRoot (F : Forest α) (a : α) : Prop := a ∈ F.nodes ∧ ∀ p, a ∉ F.kids p

theorem not_under_kid (h : a ∈ F.kids p) : ¬ F.Under p a := by
  intro hunder
  have hcycle : TransGen (fun b p => b ∈ F.kids p) p p := TransGen.tail' hunder h
  exact F.founded.transGen.irrefl.irrefl p hcycle

theorem under_total (ha : F.Under x a) (hb : F.Under x b) : F.Under a b ∨ F.Under b a :=
  ReflTransGen.total_of_right_unique (fun _ _ _ hp hq => F.one_parent _ _ _ hp hq) ha hb

theorem siblings_disjoint (ha : a ∈ F.kids p) (hb : b ∈ F.kids p) (hne : a ≠ b)
    (hxa : F.Under x a) : ¬ F.Under x b := by
  have hno {a b : α} (ha : a ∈ F.kids p) (hb : b ∈ F.kids p) (hne : a ≠ b) :
      ¬ F.Under a b := by
    intro hab
    rcases ReflTransGen.cases_head hab with rfl | ⟨q, hq, hqb⟩
    · exact hne rfl
    · obtain rfl := F.one_parent _ _ _ hq ha
      exact not_under_kid hb hqb
  intro hxb
  rcases under_total hxa hxb with h | h
  · exact hno ha hb hne h
  · exact hno hb ha hne.symm h

def insert (F : Forest α) (a : α) : Forest α where
  nodes := Insert.insert a F.nodes
  kids := F.kids
  kid_mem p b hb := ⟨.inr (F.kid_mem p b hb).1, .inr (F.kid_mem p b hb).2⟩
  nodup := F.nodup
  one_parent := F.one_parent
  founded := F.founded

def detach [DecidableEq α] (F : Forest α) (a : α) : Forest α where
  nodes := F.nodes
  kids p := (F.kids p).erase a
  kid_mem p b hb := F.kid_mem p b (List.mem_of_mem_erase hb)
  nodup p := (F.nodup p).erase a
  one_parent p q b hp hq := F.one_parent p q b (List.mem_of_mem_erase hp) (List.mem_of_mem_erase hq)
  founded := Subrelation.wf (fun hb => List.mem_of_mem_erase hb) F.founded

def attach [DecidableEq α] (F : Forest α) (p a : α) (hp : p ∈ F.nodes) (ha : F.IsRoot a)
    (hout : ¬ F.Under p a) : Forest α where
  nodes := F.nodes
  kids := Function.update F.kids p (a :: F.kids p)
  kid_mem q b hb := by
    by_cases hq : q = p
    · subst hq
      rw [Function.update_self, List.mem_cons] at hb
      rcases hb with rfl | hb
      · exact ⟨hp, ha.1⟩
      · exact F.kid_mem q b hb
    · rw [Function.update_of_ne hq] at hb
      exact F.kid_mem q b hb
  nodup q := by
    by_cases hq : q = p
    · subst hq
      rw [Function.update_self]
      exact List.nodup_cons.mpr ⟨ha.2 q, F.nodup q⟩
    · rw [Function.update_of_ne hq]
      exact F.nodup q
  one_parent q r b hb hb' := by
    have hmem (s : α) (hs : b ∈ Function.update F.kids p (a :: F.kids p) s) :
        b ∈ F.kids s ∨ b = a ∧ s = p := by
      by_cases hsp : s = p
      · subst hsp
        rw [Function.update_self, List.mem_cons] at hs
        tauto
      · rw [Function.update_of_ne hsp] at hs
        exact .inl hs
    rcases hmem q hb with hq | ⟨hba, hqp⟩ <;> rcases hmem r hb' with hr | ⟨hba', hrp⟩
    · exact F.one_parent q r b hq hr
    · exact absurd (hba' ▸ hq) (ha.2 q)
    · exact absurd (hba ▸ hr) (ha.2 r)
    · rw [hqp, hrp]
  founded := by
    -- the relation is the old one below the root that is moved, for `p` is not there
    have hmem {b s : α} (hs : b ∈ Function.update F.kids p (a :: F.kids p) s) :
        b ∈ F.kids s ∨ b = a ∧ s = p := by
      by_cases hsp : s = p
      · subst hsp
        rw [Function.update_self, List.mem_cons] at hs
        tauto
      · rw [Function.update_of_ne hsp] at hs
        exact .inl hs
    have hbelow (x : α) :
        F.Under x a → Acc (fun b s => b ∈ Function.update F.kids p (a :: F.kids p) s) x := by
      induction x using F.founded.induction with
      | _ x ih =>
        intro hx
        refine ⟨x, fun b hb => ?_⟩
        rcases hmem hb with hb | ⟨-, rfl⟩
        · exact ih b hb (hx.head hb)
        · exact absurd hx hout
    refine ⟨fun x => ?_⟩
    induction x using F.founded.induction with
    | _ x ih =>
      refine ⟨x, fun b hb => ?_⟩
      rcases hmem hb with hb | ⟨rfl, -⟩
      · exact ih b hb
      · exact hbelow b .refl

/-- Some nodes are taken out; what was below them and stays has no parent any more. -/
def without (F : Forest α) (S : Set α) [DecidablePred (· ∈ S)] : Forest α where
  nodes := F.nodes \ S
  kids p := if p ∈ S then [] else (F.kids p).filter (· ∉ S)
  kid_mem p a ha := by
    split_ifs at ha with hp
    · simp at ha
    · obtain ⟨hmem, hout⟩ := List.mem_filter.mp ha
      have h := F.kid_mem p a hmem
      exact ⟨⟨h.1, hp⟩, h.2, by simpa using hout⟩
  nodup p := by
    split_ifs
    · exact List.nodup_nil
    · exact (F.nodup p).filter _
  one_parent p q a hp hq := by
    split_ifs at hp hq
    · simp at hp
    · simp at hp
    · simp at hq
    · exact F.one_parent p q a (List.mem_of_mem_filter hp) (List.mem_of_mem_filter hq)
  founded := by
    refine Subrelation.wf (fun {b p} hb => ?_) F.founded
    split_ifs at hb
    · simp at hb
    · exact List.mem_of_mem_filter hb

def rename (F : Forest α) (σ : Equiv.Perm α) : Forest α where
  nodes := {a | σ.symm a ∈ F.nodes}
  kids p := (F.kids (σ.symm p)).map σ
  kid_mem p a ha := by
    obtain ⟨b, hb, rfl⟩ := List.mem_map.mp ha
    have h := F.kid_mem _ b hb
    exact ⟨h.1, by simpa using h.2⟩
  nodup p := (F.nodup _).map σ.injective
  one_parent p q a hp hq := by
    obtain ⟨b, hb, rfl⟩ := List.mem_map.mp hp
    obtain ⟨c, hc, hbc⟩ := List.mem_map.mp hq
    rw [σ.injective hbc] at hc
    exact σ.symm.injective (F.one_parent _ _ b hb hc)
  founded := by
    refine Subrelation.wf (fun {b p} hb => ?_) (InvImage.wf σ.symm F.founded)
    obtain ⟨c, hc, rfl⟩ := List.mem_map.mp hb
    simpa [InvImage] using hc

inductive Listing (F : Forest α) : List α → List α → Prop
  | nil : Listing F [] []
  | cons {a : α} {roots below others : List α} : Listing F (F.kids a) below →
      Listing F roots others → Listing F (a :: roots) (a :: below ++ others)

theorem Listing.mem_iff (h : F.Listing roots nodes) :
    x ∈ nodes ↔ ∃ a ∈ roots, F.Under x a := by
  induction h with
  | nil => simp
  | @cons a roots below others _ _ ihbelow ihothers =>
    have hself : F.Under x a ↔ x = a ∨ ∃ b ∈ F.kids a, F.Under x b := by
      constructor
      · intro h
        rcases ReflTransGen.cases_tail h with rfl | ⟨b, hb, hba⟩
        · exact .inl rfl
        · exact .inr ⟨b, hba, hb⟩
      · rintro (rfl | ⟨b, hb, hxb⟩)
        · exact .refl
        · exact hxb.tail hb
    simp [ihbelow, ihothers, hself, or_assoc]

theorem exists_listing (roots : List α) : ∃ nodes, F.Listing roots nodes := by
  have hroots (roots : List α) (h : ∀ a ∈ roots, ∃ below, F.Listing (F.kids a) below) :
      ∃ nodes, F.Listing roots nodes := by
    induction roots with
    | nil => exact ⟨[], .nil⟩
    | cons a roots ih =>
      obtain ⟨below, hbelow⟩ := h a (by simp)
      obtain ⟨others, hothers⟩ := ih (fun b hb => h b (by simp [hb]))
      exact ⟨_, .cons hbelow hothers⟩
  have hall (a : α) : ∃ below, F.Listing (F.kids a) below := by
    induction a using F.founded.induction with
    | _ a ih => exact hroots _ (fun b hb => ih b hb)
  exact hroots roots (fun a _ => hall a)

theorem Listing.congr (h : F.Listing roots nodes) (hsame : ∀ x ∈ nodes, G.kids x = F.kids x) :
    G.Listing roots nodes := by
  induction h with
  | nil => exact .nil
  | @cons a roots below others _ _ ihbelow ihothers =>
    refine .cons ?_ (ihothers (fun x hx => hsame x (by simp [hx])))
    rw [hsame a (by simp)]
    exact ihbelow (fun x hx => hsame x (by simp [hx]))

theorem Listing.nodup (h : F.Listing roots nodes)
    (hapart : roots.Pairwise (fun a b => ∀ x, F.Under x a → ¬ F.Under x b)) : nodes.Nodup := by
  induction h with
  | nil => exact List.nodup_nil
  | @cons a roots below others hbelow hothers ihbelow ihothers =>
    obtain ⟨ha, hroots⟩ := List.pairwise_cons.mp hapart
    have hkids : (F.kids a).Pairwise (fun b c => ∀ x, F.Under x b → ¬ F.Under x c) :=
      (F.nodup a).imp_of_mem (fun hb hc hne _ hx => siblings_disjoint hb hc hne hx)
    have hself : a ∉ below := by
      intro hm
      obtain ⟨b, hb, hab⟩ := hbelow.mem_iff.mp hm
      exact not_under_kid hb hab
    refine List.nodup_append.mpr ⟨List.nodup_cons.mpr ⟨hself, ihbelow hkids⟩, ihothers hroots, ?_⟩
    rintro x hx _ hy rfl
    obtain ⟨b, hb, hxb⟩ := hothers.mem_iff.mp hy
    have hxa : F.Under x a := by
      rcases List.mem_cons.mp hx with rfl | hx
      · exact .refl
      · obtain ⟨c, hc, hxc⟩ := hbelow.mem_iff.mp hx
        exact hxc.tail hc
    exact ha b hb x hxa hxb

theorem Listing.without_first {p : α} {rest others : List α} {S : Set α} [DecidablePred (· ∈ S)]
    (hkids : F.kids p = a :: rest) (hS : ∀ x, x ∈ S ↔ F.Under x a) (h : F.Listing rest others) :
    (F.without S).kids p = rest ∧ (F.without S).Listing rest others := by
  have ha : a ∈ F.kids p := by simp [hkids]
  have hnot : a ∉ rest := (List.nodup_cons.mp (hkids ▸ F.nodup p)).1
  have hout {x b : α} (hb : b ∈ rest) (hx : F.Under x b) : x ∉ S := by
    rw [hS]
    have hbp : b ∈ F.kids p := by simp [hkids, hb]
    exact siblings_disjoint hbp ha (ne_of_mem_of_not_mem hb hnot) hx
  have hp : p ∉ S := by
    rw [hS]
    exact not_under_kid ha
  have hkept {x : α} (hx : x ∉ S) (hall : ∀ b ∈ F.kids x, b ∉ S) :
      (F.without S).kids x = F.kids x := by
    change (if x ∈ S then [] else (F.kids x).filter (· ∉ S)) = F.kids x
    rw [if_neg hx, List.filter_eq_self]
    exact fun b hb => by simpa using hall b hb
  constructor
  · change (if p ∈ S then [] else (F.kids p).filter (· ∉ S)) = rest
    have haS : a ∈ S := (hS a).mpr .refl
    rw [if_neg hp, hkids, List.filter_cons_of_neg (by simpa using haS), List.filter_eq_self]
    exact fun b hb => by simpa using hout hb .refl
  · apply h.congr
    intro x hx
    obtain ⟨b, hb, hxb⟩ := h.mem_iff.mp hx
    exact hkept (hout hb hxb) (fun c hc => hout hb (hxb.head hc))

theorem without_empty [DecidablePred (· ∈ (∅ : Set α))] : F.without ∅ = F := by
  apply ext
  · simp [without]
  · funext p
    simp [without]

theorem without_without {S T : Set α} [DecidablePred (· ∈ S)] [DecidablePred (· ∈ T)]
    [DecidablePred (· ∈ S ∪ T)] : (F.without S).without T = F.without (S ∪ T) := by
  apply ext
  · ext a
    simp [without, and_assoc]
  · funext p
    by_cases hS : p ∈ S <;> by_cases hT : p ∈ T <;>
      simp [without, hS, hT, List.filter_filter, Bool.and_comm]

end Forest

end SystemTestSuite.Library
