import Mathlib
import SystemTestSuite.GsmDaemon.TallocMove

namespace SystemTestSuite.GsmDaemon

open Library

inductive TallocOp
  | talloc (context : Option ℕ) (size : ℕ) (malloc : Option ℕ)
  | free (ptr : ℕ)
  | steal (newCtx : Option ℕ) (ptr : ℕ)
  | realloc (ptr size : ℕ) (name : TallocName) (realloc : Option ℕ)

def TallocOp.run (fuel : ℕ) (h : TallocHeap) : TallocOp → Option TallocHeap
  | .talloc context size malloc => (h.talloc context size malloc).map (·.2)
  | .free ptr => (TallocHeap.tallocFree fuel h ptr).map (·.2)
  | .steal newCtx ptr => h.tallocSteal newCtx ptr
  | .realloc ptr size name new =>
    (h.tallocRealloc fuel none (some ptr) size name new).map (·.2)

structure Blocks where
  forest : Forest ℕ
  size : ℕ → ℕ

def Blocks.Holds (s : Blocks) (h : TallocHeap) : Prop :=
  TallocShape s.forest none h ∧ h.size = s.size

theorem detach_not_under {F : Forest ℕ} {p a : ℕ} (h : ¬ F.Under p a) :
    ¬ (F.detach a).Under p a :=
  fun hd => h (Relation.ReflTransGen.mono (fun _ _ hb => List.mem_of_mem_erase hb) _ _ hd)

open Classical in
/-- What the calls do to the blocks, `null` being the null context. A new block is none in use, a
block is not moved below itself. -/
inductive BlocksStep (null : Option ℕ) (s : Blocks) : TallocOp → Blocks → Prop
  | large (context : Option ℕ) (size : ℕ) (malloc : Option ℕ) : tallocMaxSize ≤ size →
      BlocksStep null s (.talloc context size malloc) s
  | exhausted (context : Option ℕ) (size : ℕ) : BlocksStep null s (.talloc context size none) s
  | newRoot {context : Option ℕ} {size a : ℕ} : size < tallocMaxSize → a ∉ s.forest.nodes →
      context.or null = none → BlocksStep null s (.talloc context size (some a))
        ⟨s.forest.insert a, Function.update s.size a size⟩
  | newChild {context : Option ℕ} {size a p : ℕ} : size < tallocMaxSize →
      (ha : a ∉ s.forest.nodes) → context.or null = some p → (hp : p ∈ s.forest.nodes) →
      BlocksStep null s (.talloc context size (some a))
        ⟨(s.forest.insert a).attach p a (.inr hp) (insert_isRoot ha) (insert_not_under ha hp),
          Function.update s.size a size⟩
  | free {a : ℕ} : a ∈ s.forest.nodes →
      BlocksStep null s (.free a) ⟨s.forest.without {x | s.forest.Under x a}, s.size⟩
  | stealRoot {newCtx : Option ℕ} {a : ℕ} : a ∈ s.forest.nodes → newCtx.or null = none →
      BlocksStep null s (.steal newCtx a) ⟨s.forest.detach a, s.size⟩
  | stealSelf {newCtx : Option ℕ} {a : ℕ} : a ∈ s.forest.nodes → newCtx.or null = some a →
      BlocksStep null s (.steal newCtx a) s
  | steal {newCtx : Option ℕ} {a p : ℕ} : (ha : a ∈ s.forest.nodes) → newCtx.or null = some p →
      (hp : p ∈ s.forest.nodes) → (hout : ¬ s.forest.Under p a) →
      BlocksStep null s (.steal newCtx a)
        ⟨(s.forest.detach a).attach p a hp (detach_isRoot ha) (detach_not_under hout), s.size⟩
  | reallocZero {a : ℕ} (name : TallocName) (realloc : Option ℕ) : a ∈ s.forest.nodes →
      BlocksStep null s (.realloc a 0 name realloc)
        ⟨s.forest.without {x | s.forest.Under x a}, s.size⟩
  | reallocLarge {a size : ℕ} (name : TallocName) (realloc : Option ℕ) : a ∈ s.forest.nodes →
      tallocMaxSize ≤ size → BlocksStep null s (.realloc a size name realloc) s
  | reallocExhausted {a size : ℕ} (name : TallocName) : a ∈ s.forest.nodes → 0 < size →
      BlocksStep null s (.realloc a size name none) s
  | realloc {a b size : ℕ} (name : TallocName) : a ∈ s.forest.nodes → 0 < size →
      size < tallocMaxSize → (b = a ∨ b ∉ s.forest.nodes) →
      BlocksStep null s (.realloc a size name (some b))
        ⟨s.forest.rename (Equiv.swap a b), Function.update s.size b size⟩

section

variable {F : Forest ℕ} {s s' : Blocks} {h : TallocHeap} {a b p : ℕ} {op : TallocOp}
  {null : Option ℕ}

open Classical in
theorem TallocShape.free (ha : a ∈ F.nodes) : ∃ n, ∀ h, TallocShape F none h → ∀ fuel ≥ n, ∃ h',
    TallocHeap.tallocFree fuel h a = some (0, h') ∧
      TallocShape (F.without {x | F.Under x a}) none h' ∧ TallocSame h h' := by
  obtain ⟨below, hbelow⟩ := Forest.exists_listing (F := F) (F.kids a)
  have htree : F.Listing [a] (a :: below) := by
    simpa using Forest.Listing.cons hbelow .nil
  have hset : {x | x ∈ a :: below} = {x | F.Under x a} := by
    ext x
    simpa using htree.mem_iff (x := x)
  refine ⟨3 * below.length + 3, fun h hs fuel hfuel => ?_⟩
  obtain ⟨h', hfree, hs', hsame⟩ := freesTree below.length F h a below fuel hs ha hbelow le_rfl hfuel
  exact ⟨h', hfree, by simpa only [hset] using hs', hsame⟩

theorem TallocShape.relabelled (hs : TallocShape F none h) (size : ℕ → ℕ) (name : ℕ → TallocName) :
    TallocShape F none { h with
      size := size
      name := name } :=
  { hs with }

theorem Blocks.Holds.talloc {context malloc : Option ℕ} {size : ℕ}
    (hstep : BlocksStep h.nullContext s (.talloc context size malloc) s') (hs : s.Holds h) :
    ∃ r h', h.talloc context size malloc = some (r, h') ∧ s'.Holds h' ∧
      h'.nullContext = h.nullContext := by
  obtain ⟨hshape, hsize⟩ := hs
  cases hstep with
  | large _ _ _ hlarge =>
    exact ⟨none, h, if_pos hlarge, ⟨hshape, hsize⟩, rfl⟩
  | exhausted =>
    refine ⟨none, h, ?_, ⟨hshape, hsize⟩, rfl⟩
    rw [TallocHeap.talloc]
    split_ifs <;> rfl
  | @newRoot _ _ a hsmall ha hcontext =>
    have htied := (hshape.newChunk ha size).tied (insert_isRoot ha)
    refine ⟨some a, _, ?_, ⟨htied, ?_⟩, ?_⟩
    · rw [TallocHeap.talloc, if_neg (by omega), hcontext]
    · rw [hsize]
    · rfl
  | @newChild _ _ a p hsmall ha hcontext hp =>
    have hnew := hshape.newChunk ha size
    have hchunk := hnew.chunkFromPtr (.inr hp)
    have hhook := hnew.hookChild (.inr hp) (insert_isRoot ha) (insert_not_under ha hp)
    refine ⟨some a, _, ?_, ⟨hhook.1, ?_⟩, ?_⟩
    · rw [TallocHeap.talloc, if_neg (by omega), hcontext]
      simp only [hchunk]
      rfl
    · rw [hhook.2.size, hsize]
    · exact hhook.2.nullContext

theorem Blocks.Holds.steal {newCtx : Option ℕ} (hs : s.Holds h)
    (hstep : BlocksStep h.nullContext s (.steal newCtx a) s') :
    ∃ h', h.tallocSteal newCtx a = some h' ∧ s'.Holds h' ∧ h'.nullContext = h.nullContext := by
  obtain ⟨hshape, hsize⟩ := hs
  cases hstep with
  | stealRoot ha hctx =>
    obtain ⟨hloose, hsame⟩ := hshape.unhook ha
    refine ⟨_, ?_, ⟨hloose.tied (detach_isRoot ha), hsame.size.trans hsize⟩, hsame.nullContext⟩
    rw [TallocHeap.tallocSteal, hshape.chunkFromPtr ha, hctx]
    rfl
  | stealSelf ha hctx =>
    refine ⟨h, ?_, ⟨hshape, hsize⟩, rfl⟩
    rw [TallocHeap.tallocSteal, hshape.chunkFromPtr ha, hctx]
    simp [hshape.chunkFromPtr ha]
  | @steal _ _ p ha hctx hp hout =>
    have hne : a ≠ p := fun he => hout (he ▸ .refl)
    obtain ⟨hloose, hsame⟩ := hshape.unhook ha
    obtain ⟨hhook, hsame'⟩ := hloose.hookChild hp (detach_isRoot ha) (detach_not_under hout)
    refine ⟨_, ?_, ⟨hhook, (hsame.trans hsame').size.trans hsize⟩, (hsame.trans hsame').nullContext⟩
    rw [TallocHeap.tallocSteal, hshape.chunkFromPtr ha, hctx]
    simp only [Option.bind_eq_bind, Option.bind_some, hshape.chunkFromPtr hp, if_neg hne]

theorem BlocksStep.realloc_run {size : ℕ} {name : TallocName} {new : Option ℕ}
    (hstep : BlocksStep null s (.realloc a size name new) s') : ∃ n, ∀ h, s.Holds h →
    h.nullContext = null → ∀ fuel ≥ n, ∃ r h',
      h.tallocRealloc fuel none (some a) size name new = some (r, h') ∧ s'.Holds h' ∧
        h'.nullContext = h.nullContext := by
  cases hstep with
  | reallocZero _ _ ha =>
    obtain ⟨n, hfree⟩ := TallocShape.free ha
    refine ⟨n, fun h hs hnull fuel hfuel => ?_⟩
    obtain ⟨h', hrun, hshape, hsame⟩ := hfree h hs.1 fuel hfuel
    refine ⟨none, h', ?_, ⟨hshape, hsame.size.trans hs.2⟩, hsame.nullContext⟩
    rw [TallocHeap.tallocRealloc, if_pos rfl, hrun]
    rfl
  | reallocLarge _ _ ha hlarge =>
    refine ⟨0, fun h hs hnull fuel hfuel => ⟨none, h, ?_, hs, rfl⟩⟩
    have hsize : size ≠ 0 := by
      rintro rfl
      simp [tallocMaxSize] at hlarge
    rw [TallocHeap.tallocRealloc, if_neg hsize, if_pos hlarge]
  | reallocExhausted _ ha hsize =>
    refine ⟨0, fun h hs hnull fuel hfuel => ⟨none, h, ?_, hs, rfl⟩⟩
    rw [TallocHeap.tallocRealloc, if_neg (by omega)]
    split_ifs
    · rfl
    · simp [hs.1.chunkFromPtr ha]
  | @realloc _ b _ _ ha hsize hsmall hb =>
    refine ⟨0, fun h hs hnull fuel hfuel => ?_⟩
    obtain ⟨hshape, hsizes⟩ := hs
    obtain ⟨hmoved, hsize', hnull'⟩ := hshape.moved ha hb
    have hnode : b ∈ (s.forest.rename (Equiv.swap a b)).nodes := by
      change (Equiv.swap a b).symm b ∈ s.forest.nodes
      rwa [Equiv.symm_swap, Equiv.swap_apply_right]
    have hresized := hmoved.relabelled
      (Function.update ((h.moveChunk a b).repoint b).size b size)
      (Function.update ((h.moveChunk a b).repoint b).name b name)
    refine ⟨some b, { (h.moveChunk a b).repoint b with
      size := Function.update ((h.moveChunk a b).repoint b).size b size
      name := Function.update ((h.moveChunk a b).repoint b).name b name }, ?_, ⟨hresized, ?_⟩, hnull'⟩
    · have hlive := (hmoved.live b).mpr hnode
      rw [TallocHeap.tallocRealloc, if_neg (by omega), if_neg (by omega)]
      simp only [hshape.chunkFromPtr ha, Option.bind_eq_bind, Option.bind_some,
        (hshape.plain a ha).1]
      simp [TallocHeap.setNameConst, TallocHeap.chunkFromPtr, hlive]
    · change Function.update ((h.moveChunk a b).repoint b).size b size = _
      rw [hsize', Function.update_idem, hsizes]

theorem BlocksStep.run (hstep : BlocksStep null s op s') : ∃ n, ∀ h, s.Holds h →
    h.nullContext = null → ∀ fuel ≥ n, ∃ h', op.run fuel h = some h' ∧ s'.Holds h' ∧
      h'.nullContext = null := by
  cases op with
  | talloc context size malloc =>
    refine ⟨0, fun h hs hnull fuel _ => ?_⟩
    obtain ⟨r, h', hrun, hs', hnull'⟩ := hs.talloc (hnull ▸ hstep)
    exact ⟨h', by rw [TallocOp.run, hrun]; rfl, hs', hnull'.trans hnull⟩
  | free ptr =>
    cases hstep with
    | free ha =>
      obtain ⟨n, hfree⟩ := TallocShape.free ha
      refine ⟨n, fun h hs hnull fuel hfuel => ?_⟩
      obtain ⟨h', hrun, hshape, hsame⟩ := hfree h hs.1 fuel hfuel
      exact ⟨h', by rw [TallocOp.run, hrun]; rfl, ⟨hshape, hsame.size.trans hs.2⟩,
        hsame.nullContext.trans hnull⟩
  | steal newCtx ptr =>
    refine ⟨0, fun h hs hnull fuel _ => ?_⟩
    obtain ⟨h', hrun, hs', hnull'⟩ := hs.steal (hnull ▸ hstep)
    exact ⟨h', hrun, hs', hnull'.trans hnull⟩
  | realloc ptr size name new =>
    obtain ⟨n, hrealloc⟩ := hstep.realloc_run
    refine ⟨n, fun h hs hnull fuel hfuel => ?_⟩
    obtain ⟨r, h', hrun, hs', hnull'⟩ := hrealloc h hs hnull fuel hfuel
    exact ⟨h', by rw [TallocOp.run, hrun]; rfl, hs', hnull'.trans hnull⟩

end

inductive BlocksRun (null : Option ℕ) : Blocks → List TallocOp → Blocks → Prop
  | nil {s : Blocks} : BlocksRun null s [] s
  | cons {s t u : Blocks} {op : TallocOp} {ops : List TallocOp} : BlocksStep null s op t →
      BlocksRun null t ops u → BlocksRun null s (op :: ops) u

theorem BlocksRun.run {null : Option ℕ} {s s' : Blocks} {ops : List TallocOp}
    (hrun : BlocksRun null s ops s') : ∃ n, ∀ h, s.Holds h → h.nullContext = null → ∀ fuel ≥ n,
      ∃ h', ops.foldlM (fun h op => op.run fuel h) h = some h' ∧ s'.Holds h' := by
  induction hrun with
  | nil => exact ⟨0, fun h hs hnull _ _ => ⟨h, rfl, hs⟩⟩
  | cons hstep _ ih =>
    obtain ⟨n₁, hfirst⟩ := hstep.run
    obtain ⟨n₂, hrest⟩ := ih
    refine ⟨max n₁ n₂, fun h hs hnull fuel hfuel => ?_⟩
    obtain ⟨h₁, hrun₁, hs₁, hnull₁⟩ := hfirst h hs hnull fuel (le_trans (le_max_left _ _) hfuel)
    obtain ⟨h₂, hrun₂, hs₂⟩ := hrest h₁ hs₁ hnull₁ fuel (le_trans (le_max_right _ _) hfuel)
    refine ⟨h₂, ?_, hs₂⟩
    rw [List.foldlM_cons, hrun₁]
    exact hrun₂

/-- No run aborts, and in the end the live chunks, their sizes, their children and the order of
these are as the calls describe. -/
theorem tallocRun_refines {null : Option ℕ} {s s' : Blocks} {ops : List TallocOp}
    (hrun : BlocksRun null s ops s') : ∃ n, ∀ h, s.Holds h → h.nullContext = null → ∀ fuel ≥ n,
      ∃ h', ops.foldlM (fun h op => op.run fuel h) h = some h' ∧
        (∀ a, h'.live a = true ↔ a ∈ s'.forest.nodes) ∧ h'.size = s'.size ∧
        ∀ p ∈ s'.forest.nodes, h'.child p = (s'.forest.kids p).head? ∧
          Linked h'.links none none (s'.forest.kids p) := by
  obtain ⟨n, hall⟩ := hrun.run
  refine ⟨n, fun h hs hnull fuel hfuel => ?_⟩
  obtain ⟨h', hrun', hshape, hsize⟩ := hall h hs hnull fuel hfuel
  exact ⟨h', hrun', hshape.live, hsize, fun p hp => ⟨hshape.child p hp, hshape.siblings p⟩⟩

def tallocInit : TallocHeap where
  live _ := false
  links := ⟨fun _ => none, fun _ => none⟩
  parent _ := none
  child _ := none
  refs _ := none
  size _ := 0
  destructor _ := .null
  name _ := .null
  handleLinks := ⟨fun _ => none, fun _ => none⟩
  handlePtr _ := 0
  nullContext := none

theorem tallocInit_holds : Blocks.Holds ⟨.empty, fun _ => 0⟩ tallocInit := by
  refine ⟨⟨?_, ?_, ?_, ?_, ?_, ?_, ?_⟩, rfl⟩
  · simp [tallocInit, Forest.empty]
  · simp [Forest.empty]
  · simp [Forest.empty, Linked]
  · simp [Forest.empty]
  · simp [Forest.empty]
  · exact fun a ha => absurd ha.1 (by simp [Forest.empty])
  · simp [Forest.empty]

theorem tallocRun_refines_move : ∃ n, ∀ fuel ≥ n, ∃ h',
    [.talloc none 8 (some 1), .talloc (some 1) 4 (some 2), .realloc 2 9 .null (some 5),
      .free 1].foldlM (fun h op => TallocOp.run fuel h op) tallocInit = some h' ∧
        h'.live 1 = false ∧ h'.live 5 = false := by
  have ha : 1 ∉ (Forest.empty : Forest ℕ).nodes := by simp [Forest.empty]
  have hb : 2 ∉ ((Forest.empty : Forest ℕ).insert 1).nodes := by simp [Forest.empty, Forest.insert]
  have hp : 1 ∈ ((Forest.empty : Forest ℕ).insert 1).nodes := by simp [Forest.insert]
  have hrun : BlocksRun none ⟨.empty, fun _ => 0⟩ [.talloc none 8 (some 1),
      .talloc (some 1) 4 (some 2), .realloc 2 9 .null (some 5), .free 1] _ :=
    .cons (.newRoot (by decide) ha rfl) <| .cons (.newChild (by decide) hb rfl hp) <|
    .cons (.realloc .null (.inl rfl) (by decide) (by decide)
      (.inr (by simp [Forest.attach, Forest.insert, Forest.empty]))) <|
    .cons (.free (.inr (.inl (by decide)))) .nil
  obtain ⟨n, hall⟩ := tallocRun_refines hrun
  refine ⟨n, fun fuel hfuel => ?_⟩
  obtain ⟨h', hrun', hlive, -⟩ := hall tallocInit tallocInit_holds rfl fuel hfuel
  refine ⟨h', hrun', Bool.eq_false_iff.mpr ?_, Bool.eq_false_iff.mpr ?_⟩
  · rw [Ne, hlive]
    exact fun hm => hm.2 .refl
  · rw [Ne, hlive]
    have hkid : 5 ∈ [2].map (Equiv.swap 2 5) := by decide
    exact fun hm => hm.2 (.single hkid)

section

variable {F : Forest ℕ} {h : TallocHeap} {a p : ℕ} {roots nodes l : List ℕ} {before : Option ℕ}

theorem tallocTotal_loop (hs : TallocShape F none h) (weight : ℕ → ℕ)
    (hl : F.Listing roots nodes) : ∀ (fuel total : ℕ) (before : Option ℕ),
    Linked h.links before none roots → (∀ r ∈ roots, r ∈ F.nodes) → 2 * nodes.length + 1 ≤ fuel →
    TallocHeap.tallocTotal.tallocTotalLoop weight fuel h roots.head? total =
      some (total + (nodes.map weight).sum) := by
  induction hl with
  | nil =>
    intro fuel total _ _ _ hfuel
    obtain ⟨fuel, rfl⟩ : ∃ fuel', fuel = fuel' + 1 := ⟨fuel - 1, by omega⟩
    rfl
  | @cons a roots below others _ _ ihbelow ihothers =>
    intro fuel total before hlinked hmem hfuel
    simp only [List.length_append, List.length_cons] at hfuel
    obtain ⟨fuel, rfl⟩ : ∃ fuel', fuel = fuel' + 2 := ⟨fuel - 2, by omega⟩
    have ha : a ∈ F.nodes := hmem a (by simp)
    obtain ⟨-, hnext, htail⟩ := hlinked
    rw [Option.or_none] at hnext
    have hkids := ihbelow fuel (weight a) none (hs.siblings a) (fun r hr => (F.kid_mem a r hr).2)
      (by omega)
    have hrest := ihothers (fuel + 1) (total + (weight a + (below.map weight).sum)) (some a) htail
      (fun r hr => hmem r (by simp [hr])) (by omega)
    have hsub : TallocHeap.tallocTotal weight (fuel + 1) h a =
        some (weight a + (below.map weight).sum) := by
      rw [TallocHeap.tallocTotal, hs.chunkFromPtr ha, Option.bind_eq_bind, Option.bind_some,
        hs.child a ha, hkids]
    rw [List.head?_cons, TallocHeap.tallocTotal.tallocTotalLoop, hsub, Option.bind_eq_bind,
      Option.bind_some, hnext, hrest]
    simp [Nat.add_assoc]

theorem firstSibling_eq (hl : Linked h.links none none l) : ∀ (l₁ l₂ : List ℕ) (fuel : ℕ),
    l = l₁ ++ a :: l₂ → l₁.length < fuel → h.firstSibling fuel a = l.head? := by
  intro l₁
  induction l₁ using List.reverseRecOn generalizing a with
  | nil =>
    rintro l₂ (_ | fuel) rfl hfuel
    · omega
    · rw [TallocHeap.firstSibling, hl.1]
      rfl
  | append_singleton l₁ b ih =>
    rintro l₂ (_ | fuel) hsplit hfuel
    · omega
    · have hprev : h.links.prev a = some b := by
        rw [hsplit, linked_append] at hl
        have h₁ := hl.2.1
        simpa using h₁
      rw [TallocHeap.firstSibling, hprev]
      simp only
      refine ih (a :: l₂) fuel ?_ ?_
      · rw [hsplit, List.append_assoc]
        rfl
      · rw [List.length_append, List.length_singleton] at hfuel
        omega

theorem TallocShape.total (hs : TallocShape F none h) (weight : ℕ → ℕ) (ha : a ∈ F.nodes)
    (hl : F.Listing (F.kids a) l) {fuel : ℕ} (hfuel : 2 * l.length + 2 ≤ fuel) :
    TallocHeap.tallocTotal weight fuel h a = some (((a :: l).map weight).sum) := by
  obtain ⟨fuel, rfl⟩ : ∃ fuel', fuel = fuel' + 1 := ⟨fuel - 1, by omega⟩
  rw [TallocHeap.tallocTotal, hs.chunkFromPtr ha, Option.bind_eq_bind, Option.bind_some,
    hs.child a ha, tallocTotal_loop hs weight hl fuel (weight a) none (hs.siblings a)
      (fun r hr => (F.kid_mem a r hr).2) (by omega)]
  simp

theorem TallocShape.parentChunk_eq (hs : TallocShape F none h) (hp : a ∈ F.kids p) {fuel : ℕ}
    (hfuel : (F.kids p).length ≤ fuel) : h.parentChunk fuel a = some (some p) := by
  obtain ⟨l₁, l₂, hkids⟩ := List.append_of_mem hp
  have hlen : l₁.length < fuel := by
    rw [hkids, List.length_append, List.length_cons] at hfuel
    omega
  have hsibling := firstSibling_eq (hs.siblings p) l₁ l₂ fuel hkids hlen
  cases hhead : (F.kids p).head? with
  | none => simp [List.head?_eq_none_iff.mp hhead] at hp
  | some first =>
    rw [TallocHeap.parentChunk, hs.chunkFromPtr (F.kid_mem p a hp).2, Option.bind_eq_bind,
      Option.bind_some, hsibling, hhead, Option.bind_some, hs.first p first hhead]

theorem TallocShape.parentChunk_root (hs : TallocShape F none h) (ha : F.IsRoot a) {fuel : ℕ}
    (hfuel : 0 < fuel) : h.parentChunk fuel a = some none := by
  obtain ⟨fuel, rfl⟩ : ∃ fuel', fuel = fuel' + 1 := ⟨fuel - 1, by omega⟩
  obtain ⟨-, hprev, hparent⟩ := hs.root a ha (by simp)
  rw [TallocHeap.parentChunk, hs.chunkFromPtr ha.1, Option.bind_eq_bind, Option.bind_some,
    TallocHeap.firstSibling, hprev]
  simp [hparent]

end

theorem tallocRun_totals {null : Option ℕ} {s s' : Blocks} {ops : List TallocOp} {a : ℕ}
    (hrun : BlocksRun null s ops s') (ha : a ∈ s'.forest.nodes) :
    ∃ l : List ℕ, l.Nodup ∧ (∀ x, x ∈ l ↔ s'.forest.Under x a) ∧
      ∃ n, ∀ h, s.Holds h → h.nullContext = null → ∀ fuel ≥ n,
        ∃ h' parent, ops.foldlM (fun h op => op.run fuel h) h = some h' ∧
          h'.tallocTotalSize fuel a = some (l.map s'.size).sum ∧
          h'.tallocTotalBlocks fuel a = some l.length ∧
          h'.parentChunk fuel a = some parent ∧ ∀ p, parent = some p ↔ a ∈ s'.forest.kids p := by
  obtain ⟨below, hbelow⟩ := Forest.exists_listing (F := s'.forest) (s'.forest.kids a)
  have htree : s'.forest.Listing [a] (a :: below) := by
    simpa using Forest.Listing.cons hbelow .nil
  obtain ⟨n, hall⟩ := hrun.run
  -- what the way to the parent needs
  obtain ⟨m, hm⟩ : ∃ m, ∀ p, a ∈ s'.forest.kids p → (s'.forest.kids p).length ≤ m := by
    by_cases hkid : ∃ p, a ∈ s'.forest.kids p
    · obtain ⟨p, hp⟩ := hkid
      refine ⟨(s'.forest.kids p).length, fun q hq => ?_⟩
      rw [s'.forest.one_parent p q a hp hq]
    · exact ⟨0, fun q hq => absurd ⟨q, hq⟩ hkid⟩
  refine ⟨a :: below, htree.nodup (List.pairwise_singleton _ _), fun x => ?_,
    n + (2 * below.length + 2) + m, fun h hs hnull fuel hfuel => ?_⟩
  · simpa using htree.mem_iff (x := x)
  obtain ⟨h', hrun', hshape, hsize⟩ := hall h hs hnull fuel (by omega)
  have hfuel' : 2 * below.length + 2 ≤ fuel := by omega
  have htotal := hshape.total h'.size ha hbelow hfuel'
  have hblocks : h'.tallocTotalBlocks fuel a = some (a :: below).length := by
    rw [TallocHeap.tallocTotalBlocks, hshape.total _ ha hbelow hfuel']
    simp [Nat.add_comm]
  by_cases hkid : ∃ p, a ∈ s'.forest.kids p
  · obtain ⟨p, hp⟩ := hkid
    have hlen := hm p hp
    refine ⟨h', some p, hrun', by rw [← hsize]; exact htotal, hblocks,
      hshape.parentChunk_eq hp (by omega), fun q => ?_⟩
    rw [Option.some.injEq]
    exact ⟨fun he => he ▸ hp, fun hq => s'.forest.one_parent p q a hp hq⟩
  · refine ⟨h', none, hrun', by rw [← hsize]; exact htotal, hblocks,
      hshape.parentChunk_root ⟨ha, not_exists.mp hkid⟩ (by omega), fun q => ?_⟩
    simpa using fun hq => hkid ⟨q, hq⟩

theorem tallocRun_totals_two : ∃ n, ∀ fuel ≥ n, ∃ h' total,
    [.talloc none 8 (some 1), .talloc (some 1) 4 (some 2)].foldlM
        (fun h op => TallocOp.run fuel h op) tallocInit = some h' ∧
      h'.tallocTotalSize fuel 2 = some total ∧ h'.parentChunk fuel 2 = some (some 1) := by
  have ha : 1 ∉ (Forest.empty : Forest ℕ).nodes := by simp [Forest.empty]
  have hb : 2 ∉ ((Forest.empty : Forest ℕ).insert 1).nodes := by simp [Forest.empty, Forest.insert]
  have hp : 1 ∈ ((Forest.empty : Forest ℕ).insert 1).nodes := by simp [Forest.insert]
  have hrun : BlocksRun none ⟨.empty, fun _ => 0⟩ [.talloc none 8 (some 1),
      .talloc (some 1) 4 (some 2)] _ :=
    .cons (.newRoot (by decide) ha rfl) <| .cons (.newChild (by decide) hb rfl hp) .nil
  obtain ⟨l, -, -, n, hall⟩ := tallocRun_totals (a := 2) hrun (.inl rfl)
  refine ⟨n, fun fuel hfuel => ?_⟩
  obtain ⟨h', parent, hrun', htotal, -, hparent, hiff⟩ := hall tallocInit tallocInit_holds rfl fuel hfuel
  have hkid : 2 ∈ [2] := by decide
  exact ⟨h', _, hrun', htotal, by rw [hparent, (hiff 1).mpr hkid]⟩

end SystemTestSuite.GsmDaemon
