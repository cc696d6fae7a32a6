import SystemTestSuite.GsmDaemon.TallocForest

namespace SystemTestSuite.GsmDaemon

open Library

section

variable {F : Forest ℕ} {h : TallocHeap} {a b p : ℕ}

theorem TallocShape.next_iff (hs : TallocShape F none h) (ha : a ∈ F.nodes) (hb : b ∈ F.nodes) :
    h.links.next a = some b ↔ h.links.prev b = some a := by
  constructor
  · intro hnext
    by_cases hroot : ∃ p, a ∈ F.kids p
    · obtain ⟨p, hp⟩ := hroot
      exact (hs.siblings p).prev_next hp hnext
    · rw [(hs.root a ⟨ha, not_exists.mp hroot⟩ (by simp)).1] at hnext
      simp at hnext
  · intro hprev
    by_cases hroot : ∃ p, b ∈ F.kids p
    · obtain ⟨p, hp⟩ := hroot
      exact (hs.siblings p).next_prev hp hprev
    · rw [(hs.root b ⟨hb, not_exists.mp hroot⟩ (by simp)).2.1] at hprev
      simp at hprev

theorem TallocShape.parent_cases (hs : TallocShape F none h) (ha : a ∈ F.nodes)
    (hparent : h.parent a = some p) : a ∈ F.kids p := by
  by_cases hroot : ∃ q, a ∈ F.kids q
  · obtain ⟨q, hq⟩ := hroot
    cases hkids : F.kids q with
    | nil => simp [hkids] at hq
    | cons c l =>
      rcases List.mem_cons.mp (hkids ▸ hq) with rfl | hl
      · have hfirst := hs.first q a (by rw [hkids]; rfl)
        rw [hparent] at hfirst
        exact Option.some.inj hfirst ▸ hq
      · rw [hs.rest q a (by rw [hkids]; exact hl)] at hparent
        simp at hparent
  · rw [(hs.root a ⟨ha, not_exists.mp hroot⟩ (by simp)).2.2] at hparent
    simp at hparent

theorem TallocShape.child_iff (hs : TallocShape F none h) (hp : p ∈ F.nodes) (ha : a ∈ F.nodes) :
    h.child p = some a ↔ h.parent a = some p := by
  rw [hs.child p hp]
  constructor
  · exact hs.first p a
  · intro hparent
    have hp := hs.parent_cases ha hparent
    cases hkids : F.kids p with
    | nil => simp [hkids] at hp
    | cons c l =>
      rcases List.mem_cons.mp (hkids ▸ hp) with rfl | hl
      · rfl
      · rw [hs.rest p a (by rw [hkids]; exact hl)] at hparent
        simp at hparent

theorem ne_of_kid (hb : b ∈ F.kids a) : b ≠ a := by
  rintro rfl
  exact Forest.not_under_kid hb .refl

theorem TallocShape.next_points (hs : TallocShape F none h) (ha : a ∈ F.nodes)
    (hb : h.links.next a = some b) : b ∈ F.nodes ∧ b ≠ a := by
  by_cases hroot : ∃ p, a ∈ F.kids p
  · obtain ⟨p, hp⟩ := hroot
    obtain ⟨l₁, l₂, hkids⟩ := List.append_of_mem hp
    have hnodup := F.nodup p
    rw [hkids, List.nodup_append, List.nodup_cons] at hnodup
    have hsiblings := hs.siblings p
    rw [hkids, linked_append] at hsiblings
    have hnext := hsiblings.2.2.1
    rw [hb, Option.or_none] at hnext
    have hmem : b ∈ l₂ := List.mem_of_mem_head? hnext.symm
    refine ⟨(F.kid_mem p b (by rw [hkids]; simp [hmem])).2, ?_⟩
    exact ne_of_mem_of_not_mem hmem hnodup.2.1.1
  · rw [(hs.root a ⟨ha, not_exists.mp hroot⟩ (by simp)).1] at hb
    simp at hb

theorem TallocShape.prev_points (hs : TallocShape F none h) (ha : a ∈ F.nodes)
    (hb : h.links.prev a = some b) : b ∈ F.nodes ∧ b ≠ a := by
  by_cases hroot : ∃ p, a ∈ F.kids p
  · obtain ⟨p, hp⟩ := hroot
    have hmem : b ∈ F.kids p := by
      rcases (hs.siblings p).prev_mem hp hb with hm | hm
      · exact hm
      · simp at hm
    have hmem' := (F.kid_mem p b hmem).2
    have hnext := (hs.next_iff hmem' ha).mpr hb
    exact ⟨hmem', (hs.next_points hmem' hnext).2.symm⟩
  · rw [(hs.root a ⟨ha, not_exists.mp hroot⟩ (by simp)).2.1] at hb
    simp at hb

theorem TallocShape.child_points (hs : TallocShape F none h) (ha : a ∈ F.nodes)
    (hb : h.child a = some b) : b ∈ F.nodes ∧ b ≠ a := by
  rw [hs.child a ha] at hb
  have hmem := List.mem_of_mem_head? hb
  exact ⟨(F.kid_mem a b hmem).2, ne_of_kid hmem⟩

theorem TallocShape.parent_points (hs : TallocShape F none h) (ha : a ∈ F.nodes)
    (hb : h.parent a = some b) : b ∈ F.nodes ∧ b ≠ a := by
  have hmem := hs.parent_cases ha hb
  exact ⟨(F.kid_mem b a hmem).1, (ne_of_kid hmem).symm⟩

theorem TallocShape.rename {σ : Equiv.Perm ℕ} {h' : TallocHeap} (hs : TallocShape F none h)
    (hnext : ∀ x ∈ F.nodes, h'.links.next (σ x) = (h.links.next x).map σ)
    (hprev : ∀ x ∈ F.nodes, h'.links.prev (σ x) = (h.links.prev x).map σ)
    (hchild : ∀ x ∈ F.nodes, h'.child (σ x) = (h.child x).map σ)
    (hparent : ∀ x ∈ F.nodes, h'.parent (σ x) = (h.parent x).map σ)
    (hlive : ∀ x, h'.live (σ x) = h.live x)
    (hplain : ∀ x ∈ F.nodes, h'.refs (σ x) = none ∧ h'.destructor (σ x) = .null) :
    TallocShape (F.rename σ) none h' := by
  have hkids (p : ℕ) : (F.rename σ).kids (σ p) = (F.kids p).map σ := by
    change (F.kids (σ.symm (σ p))).map σ = _
    rw [Equiv.symm_apply_apply]
  have hnodes (p : ℕ) : σ p ∈ (F.rename σ).nodes ↔ p ∈ F.nodes := by
    change σ.symm (σ p) ∈ F.nodes ↔ _
    rw [Equiv.symm_apply_apply]
  have hmem {p x : ℕ} (hx : x ∈ F.kids p) : x ∈ F.nodes := (F.kid_mem p x hx).2
  constructor
  · intro y
    obtain ⟨x, rfl⟩ := σ.surjective y
    rw [hlive, hnodes]
    exact hs.live x
  · intro q hq
    obtain ⟨p, rfl⟩ := σ.surjective q
    rw [hnodes] at hq
    rw [hkids, hchild p hq, hs.child p hq, List.head?_map]
  · intro q
    obtain ⟨p, rfl⟩ := σ.surjective q
    rw [hkids]
    exact (hs.siblings p).map (fun x hx => hnext x (hmem hx)) (fun x hx => hprev x (hmem hx))
  · intro q y hy
    obtain ⟨p, rfl⟩ := σ.surjective q
    rw [hkids, List.head?_map, Option.map_eq_some_iff] at hy
    obtain ⟨x, hx, rfl⟩ := hy
    rw [hparent x (hmem (List.mem_of_mem_head? hx)), hs.first p x hx]
    rfl
  · intro q y hy
    obtain ⟨p, rfl⟩ := σ.surjective q
    rw [hkids, ← List.map_tail, List.mem_map] at hy
    obtain ⟨x, hx, rfl⟩ := hy
    rw [hparent x (hmem (List.mem_of_mem_tail hx)), hs.rest p x hx]
    rfl
  · intro y hy _
    obtain ⟨x, rfl⟩ := σ.surjective y
    have hroot : F.IsRoot x := by
      refine ⟨(hnodes x).mp hy.1, fun p hm => hy.2 (σ p) ?_⟩
      rw [hkids]
      exact List.mem_map_of_mem hm
    obtain ⟨h₁, h₂, h₃⟩ := hs.root x hroot (by simp)
    rw [hnext x hroot.1, hprev x hroot.1, hparent x hroot.1, h₁, h₂, h₃]
    exact ⟨rfl, rfl, rfl⟩
  · intro y hy
    obtain ⟨x, rfl⟩ := σ.surjective y
    exact hplain x ((hnodes x).mp hy)

structure RepointSpec (h h' : TallocHeap) (b : ℕ) : Prop where
  next : ∀ x, h'.links.next x = if h.links.prev b = some x then some b else h.links.next x
  prev : ∀ x, h'.links.prev x = if h.links.next b = some x then some b else h.links.prev x
  child : ∀ x, h'.child x = if h.parent b = some x then some b else h.child x
  parent : ∀ x, h'.parent x = if h.child b = some x then some b else h.parent x
  live : h'.live = h.live
  refs : h'.refs = h.refs
  destructor : h'.destructor = h.destructor
  size : h'.size = h.size
  nullContext : h'.nullContext = h.nullContext

theorem repoint_spec (hprev : h.links.prev b ≠ some b) (hparent : h.parent b ≠ some b) :
    RepointSpec h (h.repoint b) b := by
  have hlinks : (h.repoint b).links =
      (h.links.setNext? (h.links.prev b) (some b)).setPrev? (h.links.next b) (some b) := by
    rw [TallocHeap.repoint]
    cases hp : h.parent b with
    | none =>
      cases h.child b <;> simp only [Links.setNext?_next_ne _ _ hprev]
    | some p =>
      have hpb : b ≠ p := fun he => hparent (by rw [hp, he])
      simp only [Function.update_of_ne hpb]
      cases h.child b <;> simp only [Links.setNext?_next_ne _ _ hprev]
  have hchild : (h.repoint b).child =
      (h.parent b).elim h.child fun p => Function.update h.child p (some b) := by
    rw [TallocHeap.repoint]
    cases h.parent b with
    | none => cases h.child b <;> rfl
    | some p =>
      simp only
      cases Function.update h.child p (some b) b <;> rfl
  have hparents : (h.repoint b).parent =
      (h.child b).elim h.parent fun c => Function.update h.parent c (some b) := by
    rw [TallocHeap.repoint]
    cases hp : h.parent b with
    | none => cases h.child b <;> rfl
    | some p =>
      have hpb : b ≠ p := fun he => hparent (by rw [hp, he])
      simp only [Function.update_of_ne hpb]
      cases h.child b <;> rfl
  have hother : (h.repoint b).live = h.live ∧ (h.repoint b).refs = h.refs ∧
      (h.repoint b).destructor = h.destructor ∧ (h.repoint b).size = h.size ∧
      (h.repoint b).nullContext = h.nullContext := by
    rw [TallocHeap.repoint]
    cases h.parent b with
    | none => cases h.child b <;> exact ⟨rfl, rfl, rfl, rfl, rfl⟩
    | some p =>
      simp only
      cases Function.update h.child p (some b) b <;> exact ⟨rfl, rfl, rfl, rfl, rfl⟩
  obtain ⟨hlive, hrefs, hdestructor, hsize, hnull⟩ := hother
  refine ⟨fun x => ?_, fun x => ?_, fun x => ?_, fun x => ?_, hlive, hrefs, hdestructor, hsize, hnull⟩
  · rw [hlinks, Links.setPrev?_next, Links.setNext?_next]
  · rw [hlinks, Links.setPrev?_prev, Links.setNext?_prev]
  · rw [hchild]
    cases h.parent b with
    | none => simp
    | some p =>
      by_cases hpx : p = x
      · simp [hpx]
      · simp [hpx, Function.update_of_ne (Ne.symm hpx)]
  · rw [hparents]
    cases h.child b with
    | none => simp
    | some c =>
      by_cases hcx : c = x
      · simp [hcx]
      · simp [hcx, Function.update_of_ne (Ne.symm hcx)]

theorem swap_pointer {x : ℕ} {f g f' : ℕ → Option ℕ} (hb : b = a ∨ b ∉ F.nodes) (hx : x ∈ F.nodes)
    (hpoints : ∀ y, f x = some y → y ∈ F.nodes ∧ y ≠ x) (hiff : f x = some a ↔ g a = some x)
    (hnew : g a ≠ some b)
    (hf : ∀ y, f' y = if g a = some y then some b else Function.update f b (f a) y) :
    f' (Equiv.swap a b x) = (f x).map (Equiv.swap a b) := by
  have hne {y : ℕ} (hy : y ∈ F.nodes) (hya : y ≠ a) : y ≠ b := by
    rintro rfl
    exact hb.elim hya (fun hout => hout hy)
  by_cases hxa : x = a
  · subst hxa
    rw [Equiv.swap_apply_left, hf, if_neg hnew, Function.update_self]
    cases hfx : f x with
    | none => rfl
    | some y =>
      obtain ⟨hy, hyx⟩ := hpoints y hfx
      rw [Option.map_some, Equiv.swap_apply_of_ne_of_ne hyx (hne hy hyx)]
  · rw [Equiv.swap_apply_of_ne_of_ne hxa (hne hx hxa), hf, Function.update_of_ne (hne hx hxa)]
    by_cases hg : g a = some x
    · rw [if_pos hg, hiff.mpr hg, Option.map_some, Equiv.swap_apply_left]
    · rw [if_neg hg]
      cases hfx : f x with
      | none => rfl
      | some y =>
        have hya : y ≠ a := fun he => hg (hiff.mp (by rw [hfx, he]))
        rw [Option.map_some, Equiv.swap_apply_of_ne_of_ne hya (hne (hpoints y hfx).1 hya)]

theorem TallocShape.moved (hs : TallocShape F none h) (ha : a ∈ F.nodes)
    (hb : b = a ∨ b ∉ F.nodes) :
    TallocShape (F.rename (Equiv.swap a b)) none ((h.moveChunk a b).repoint b) ∧
      ((h.moveChunk a b).repoint b).size = Function.update h.size b (h.size a) ∧
      ((h.moveChunk a b).repoint b).nullContext = h.nullContext := by
  -- nothing that is live points to the new place, and the chunk not to itself
  have hnot {o : Option ℕ} (ho : ∀ y, o = some y → y ∈ F.nodes ∧ y ≠ a) : o ≠ some b := by
    intro he
    obtain ⟨hmem, hne⟩ := ho b he
    exact hb.elim hne (fun hout => hout hmem)
  have hnext : (h.moveChunk a b).links.next b = h.links.next a := Links.setNext_next_self ..
  have hprev : (h.moveChunk a b).links.prev b = h.links.prev a := by
    simp [TallocHeap.moveChunk]
  have hparent : (h.moveChunk a b).parent b = h.parent a := Function.update_self ..
  have hchild : (h.moveChunk a b).child b = h.child a := Function.update_self ..
  have hnew := hnot (fun y => hs.next_points ha (b := y))
  have hnew' := hnot (fun y => hs.prev_points ha (b := y))
  have hnewP := hnot (fun y => hs.parent_points ha (b := y))
  have hnewC := hnot (fun y => hs.child_points ha (b := y))
  have spec := repoint_spec (h := h.moveChunk a b) (b := b) (by rwa [hprev]) (by rwa [hparent])
  refine ⟨?_, spec.size, spec.nullContext⟩
  apply hs.rename
  · intro x hx
    apply swap_pointer hb hx (fun y => hs.next_points hx) (hs.next_iff hx ha) hnew'
    intro y
    rw [spec.next, hprev]
    rfl
  · intro x hx
    apply swap_pointer hb hx (fun y => hs.prev_points hx) (hs.next_iff ha hx).symm hnew
    intro y
    rw [spec.prev, hnext]
    rfl
  · intro x hx
    apply swap_pointer hb hx (fun y => hs.child_points hx) (hs.child_iff hx ha) hnewP
    intro y
    rw [spec.child, hparent]
    rfl
  · intro x hx
    apply swap_pointer hb hx (fun y => hs.parent_points hx) (hs.child_iff ha hx).symm hnewC
    intro y
    rw [spec.parent, hchild]
    rfl
  · intro x
    rw [spec.live]
    change Function.update (Function.update h.live a false) b true _ = _
    by_cases hxa : x = a
    · rw [hxa, Equiv.swap_apply_left, Function.update_self, (hs.live a).mpr ha]
    · by_cases hxb : x = b
      · have hout : b ∉ F.nodes := hb.resolve_left (fun he => hxa (hxb.trans he))
        have hab : a ≠ b := fun he => hxa (hxb.trans he.symm)
        have hdead : h.live b = false := Bool.eq_false_iff.mpr (fun hl => hout ((hs.live b).mp hl))
        rw [hxb, Equiv.swap_apply_right, Function.update_of_ne hab, Function.update_self, hdead]
      · rw [Equiv.swap_apply_of_ne_of_ne hxa hxb, Function.update_of_ne hxb,
          Function.update_of_ne hxa]
  · intro x hx
    rw [spec.refs, spec.destructor]
    change Function.update h.refs b (h.refs a) _ = _ ∧
      Function.update h.destructor b (h.destructor a) _ = _
    by_cases hxa : x = a
    · rw [hxa, Equiv.swap_apply_left, Function.update_self, Function.update_self]
      exact hs.plain a ha
    · have hxb : x ≠ b := by
        rintro rfl
        exact hb.elim hxa (fun hout => hout hx)
      rw [Equiv.swap_apply_of_ne_of_ne hxa hxb, Function.update_of_ne hxb,
        Function.update_of_ne hxb]
      exact hs.plain x hx

end

end SystemTestSuite.GsmDaemon
