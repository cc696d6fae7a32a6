import SystemTestSuite.GsmDaemon.Talloc
import SystemTestSuite.Library.Forest

namespace SystemTestSuite.GsmDaemon

open Library

/-- The links and flags of the chunks show the forest; those of the root `loose` may be anything. No
chunk is referenced or has a destructor. -/
structure TallocShape (F : Forest ℕ) (loose : Option ℕ) (h : TallocHeap) : Prop where
  live : ∀ a, h.live a = true ↔ a ∈ F.nodes
  child : ∀ p ∈ F.nodes, h.child p = (F.kids p).head?
  siblings : ∀ p, Linked h.links none none (F.kids p)
  first : ∀ p a, (F.kids p).head? = some a → h.parent a = some p
  rest : ∀ p, ∀ a ∈ (F.kids p).tail, h.parent a = none
  root : ∀ a, F.IsRoot a → loose ≠ some a →
    h.links.next a = none ∧ h.links.prev a = none ∧ h.parent a = none
  plain : ∀ a ∈ F.nodes, h.refs a = none ∧ h.destructor a = .null

structure TallocSame (h h' : TallocHeap) : Prop where
  size : h'.size = h.size
  nullContext : h'.nullContext = h.nullContext

section

variable {F : Forest ℕ} {h : TallocHeap} {k : Links ℕ} {l : List ℕ} {a b p q : ℕ}
  {before after : Option ℕ} {loose : Option ℕ}

theorem tlistAdd_linked (hl : Linked k none none l) (hnodup : l.Nodup) (ha : a ∉ l) :
    Linked (tlistAdd k l.head? a).1 none none (a :: l) ∧ (tlistAdd k l.head? a).2 = some a := by
  cases l with
  | nil => simp [tlistAdd, Linked]
  | cons b l =>
    have hba : b ≠ a := by
      rintro rfl
      exact ha (by simp)
    have hset := hl.setPrev_head hnodup (some a)
    refine ⟨⟨?_, ?_, ?_⟩, rfl⟩
    · simp [tlistAdd]
    · simp [tlistAdd]
    · change Linked (((k.setPrev b (some a)).setNext a (some b)).setPrev a none) (some a) none
        (b :: l)
      rw [linked_setPrev ha, linked_setNext ha]
      exact hset

theorem tlistAdd_same (hb : b ≠ a) (hhead : l.head? ≠ some b) :
    (tlistAdd k l.head? a).1.next b = k.next b ∧ (tlistAdd k l.head? a).1.prev b = k.prev b := by
  cases l with
  | nil =>
    exact ⟨Links.setNext_next_ne _ _ hb, Links.setPrev_prev_ne _ _ hb⟩
  | cons c l =>
    have hbc : b ≠ c := fun he => hhead (by rw [he]; rfl)
    constructor
    · exact Links.setNext_next_ne (k.setPrev c (some a)) _ hb
    · exact (Links.setPrev_prev_ne ((k.setPrev c (some a)).setNext a (some c)) _ hb).trans
        (Links.setPrev_prev_ne k _ hbc)

structure HookSpec (h h' : TallocHeap) (p a : ℕ) (l : List ℕ) : Prop where
  links : h'.links = (tlistAdd h.links l.head? a).1
  child : h'.child = Function.update h.child p (some a)
  self : h'.parent a = some p
  first : ∀ b, l.head? = some b → h'.parent b = none
  other : ∀ b ≠ a, l.head? ≠ some b → h'.parent b = h.parent b
  live : h'.live = h.live
  refs : h'.refs = h.refs
  destructor : h'.destructor = h.destructor
  same : TallocSame h h'

theorem hookChild_spec (hchild : h.child p = l.head?) (hl : Linked h.links none none l)
    (hnodup : l.Nodup) (ha : a ∉ l) : HookSpec h (h.hookChild p a) p a l := by
  have hsnd := (tlistAdd_linked hl hnodup ha).2
  cases hc : l.head? with
  | none =>
    rw [hc] at hchild hsnd
    rw [TallocHeap.hookChild, hchild]
    refine ⟨?_, ?_, ?_, ?_, ?_, rfl, rfl, rfl, rfl, rfl⟩
    · simp only [hchild, hc]
    · simp only [hchild, hsnd]
    · simp
    · simp [hc]
    · intro b hb _
      simp [Function.update_of_ne hb]
  | some first =>
    have hne : a ≠ first := fun he => ha (he ▸ List.mem_of_mem_head? hc)
    rw [hc] at hchild hsnd
    rw [TallocHeap.hookChild, hchild]
    refine ⟨?_, ?_, ?_, ?_, ?_, rfl, rfl, rfl, rfl, rfl⟩
    · simp only [hchild, hc]
    · simp only [hchild, hsnd]
    · simp [Function.update_of_ne hne]
    · rintro b hb
      obtain rfl : first = b := by simpa [hc] using hb
      simp
    · intro b hb hhead
      have hbf : b ≠ first := fun he => hhead (by rw [hc, he])
      simp [Function.update_of_ne hb, Function.update_of_ne hbf]

theorem attach_kids (hp : p ∈ F.nodes) (ha : F.IsRoot a) (hout : ¬ F.Under p a) :
    (F.attach p a hp ha hout).kids p = a :: F.kids p ∧
      ∀ q ≠ p, (F.attach p a hp ha hout).kids q = F.kids q :=
  ⟨Function.update_self .., fun _ hq => Function.update_of_ne hq ..⟩

theorem TallocShape.hookChild (hs : TallocShape F (some a) h) (hp : p ∈ F.nodes) (ha : F.IsRoot a)
    (hout : ¬ F.Under p a) :
    TallocShape (F.attach p a hp ha hout) none (h.hookChild p a) ∧
      TallocSame h (h.hookChild p a) := by
  have hnot : a ∉ F.kids p := ha.2 p
  have hlinked := (tlistAdd_linked (hs.siblings p) (F.nodup p) hnot).1
  have spec := hookChild_spec (hs.child p hp) (hs.siblings p) (F.nodup p) hnot
  obtain ⟨hself, hother⟩ := attach_kids hp ha hout
  -- a chunk elsewhere is not the one that was the first child before
  have helse (q b : ℕ) (hq : q ≠ p) (hb : b ∈ F.kids q) : b ≠ a ∧ (F.kids p).head? ≠ some b := by
    refine ⟨ne_of_mem_of_not_mem hb (ha.2 q), fun hhead => ?_⟩
    exact hq (F.one_parent q p b hb (List.mem_of_mem_head? hhead))
  refine ⟨?_, spec.same⟩
  constructor
  · rw [spec.live]
    exact hs.live
  · intro q hq
    by_cases hqp : q = p
    · rw [hqp, hself, spec.child, Function.update_self]
      rfl
    · rw [hother q hqp, spec.child, Function.update_of_ne hqp]
      exact hs.child q hq
  · intro q
    rw [spec.links]
    by_cases hqp : q = p
    · rw [hqp, hself]
      exact hlinked
    · rw [hother q hqp]
      apply (linked_congr _ _).mpr (hs.siblings q)
      · exact fun b hb => (tlistAdd_same (helse q b hqp hb).1 (helse q b hqp hb).2).1
      · exact fun b hb => (tlistAdd_same (helse q b hqp hb).1 (helse q b hqp hb).2).2
  · intro q b hb
    by_cases hqp : q = p
    · rw [hqp, hself] at hb
      obtain rfl : a = b := by simpa using hb
      rw [hqp]
      exact spec.self
    · rw [hother q hqp] at hb
      have hmem := List.mem_of_mem_head? hb
      rw [spec.other b (helse q b hqp hmem).1 (helse q b hqp hmem).2]
      exact hs.first q b hb
  · intro q b hb
    by_cases hqp : q = p
    · rw [hqp, hself, List.tail_cons] at hb
      by_cases hhead : (F.kids p).head? = some b
      · exact spec.first b hhead
      · rw [spec.other b (ne_of_mem_of_not_mem hb hnot) hhead]
        cases hk : F.kids p with
        | nil => simp [hk] at hb
        | cons c l =>
          rw [hk] at hb hhead
          apply hs.rest p
          rw [hk]
          rcases List.mem_cons.mp hb with rfl | hb
          · exact absurd rfl hhead
          · exact hb
    · rw [hother q hqp] at hb
      have hmem := List.mem_of_mem_tail hb
      rw [spec.other b (helse q b hqp hmem).1 (helse q b hqp hmem).2]
      exact hs.rest q b hb
  · intro b hb _
    have hbp := hb.2 p
    rw [hself, List.mem_cons, not_or] at hbp
    have hroot : F.IsRoot b := by
      refine ⟨hb.1, fun q hm => ?_⟩
      by_cases hqp : q = p
      · exact hbp.2 (hqp ▸ hm)
      · exact hb.2 q (by rw [hother q hqp]; exact hm)
    have hhead : (F.kids p).head? ≠ some b := fun he => hbp.2 (List.mem_of_mem_head? he)
    have hold := hs.root b hroot (fun he => hbp.1 (Option.some.inj he).symm)
    rw [spec.links, (tlistAdd_same hbp.1 hhead).1, (tlistAdd_same hbp.1 hhead).2,
      spec.other b hbp.1 hhead]
    exact hold
  · rw [spec.refs, spec.destructor]
    exact hs.plain

theorem detach_isRoot (ha : a ∈ F.nodes) : (F.detach a).IsRoot a :=
  ⟨ha, fun p hm => (List.Nodup.mem_erase_iff (F.nodup p)).mp hm |>.1 rfl⟩

theorem detach_kids_other (h : a ∉ F.kids q) : (F.detach a).kids q = F.kids q :=
  List.erase_of_not_mem h

theorem IsRoot.of_detach (hb : (F.detach a).IsRoot b) (hne : b ≠ a) : F.IsRoot b :=
  ⟨hb.1, fun p hm => hb.2 p ((List.Nodup.mem_erase_iff (F.nodup p)).mpr ⟨hne, hm⟩)⟩

theorem TallocShape.rewrite {h' : TallocHeap} (hs : TallocShape F none h) (hap : a ∈ F.kids p)
    (hlinks : Linked h'.links none none ((F.kids p).erase a))
    (hsame : ∀ b, b ∉ F.kids p → h'.links.next b = h.links.next b ∧
      h'.links.prev b = h.links.prev b ∧ h'.parent b = h.parent b)
    (hchild : h'.child = Function.update h.child p ((F.kids p).erase a).head?)
    (hfirst : ∀ b, ((F.kids p).erase a).head? = some b → h'.parent b = some p)
    (hrest : ∀ b ∈ ((F.kids p).erase a).tail, h'.parent b = none)
    (hlive : h'.live = h.live) (hrefs : h'.refs = h.refs)
    (hdestructor : h'.destructor = h.destructor) :
    TallocShape (F.detach a) (some a) h' := by
  have hother (q : ℕ) (hq : q ≠ p) : (F.detach a).kids q = F.kids q :=
    detach_kids_other (fun hm => hq (F.one_parent q p a hm hap))
  have hout (q b : ℕ) (hq : q ≠ p) (hb : b ∈ F.kids q) : b ∉ F.kids p :=
    fun hm => hq (F.one_parent q p b hb hm)
  constructor
  · rw [hlive]
    exact hs.live
  · intro q hq
    rw [hchild]
    by_cases hqp : q = p
    · rw [hqp, Function.update_self]
      rfl
    · rw [Function.update_of_ne hqp, hother q hqp]
      exact hs.child q hq
  · intro q
    by_cases hqp : q = p
    · rw [hqp]
      exact hlinks
    · rw [hother q hqp]
      apply (linked_congr _ _).mpr (hs.siblings q)
      · exact fun b hb => (hsame b (hout q b hqp hb)).1
      · exact fun b hb => (hsame b (hout q b hqp hb)).2.1
  · intro q b hb
    by_cases hqp : q = p
    · rw [hqp] at hb ⊢
      exact hfirst b hb
    · rw [hother q hqp] at hb
      rw [(hsame b (hout q b hqp (List.mem_of_mem_head? hb))).2.2]
      exact hs.first q b hb
  · intro q b hb
    by_cases hqp : q = p
    · rw [hqp] at hb
      exact hrest b hb
    · rw [hother q hqp] at hb
      rw [(hsame b (hout q b hqp (List.mem_of_mem_tail hb))).2.2]
      exact hs.rest q b hb
  · intro b hb hloose
    have hne : b ≠ a := fun he => hloose (by rw [he])
    have hroot := IsRoot.of_detach hb hne
    obtain ⟨hnext, hprev, hparent⟩ := hsame b (hroot.2 p)
    rw [hnext, hprev, hparent]
    exact hs.root b hroot (by simp)
  · rw [hrefs, hdestructor]
    exact hs.plain

theorem TallocShape.unhook_first {l : List ℕ} (hs : TallocShape F none h)
    (hkids : F.kids p = a :: l) :
    TallocShape (F.detach a) (some a) (h.unhook a) ∧ TallocSame h (h.unhook a) := by
  have hap : a ∈ F.kids p := by simp [hkids]
  have hp := (F.kid_mem p a hap).1
  have hnodup := F.nodup p
  rw [hkids, List.nodup_cons] at hnodup
  have herase : (F.kids p).erase a = l := by rw [hkids, List.erase_cons_head]
  obtain ⟨-, hnext, hlinked⟩ : Linked h.links none none (a :: l) := hkids ▸ hs.siblings p
  rw [Option.or_none] at hnext
  have hparent := hs.first p a (by rw [hkids]; rfl)
  have hchild := hs.child p hp
  rw [hkids, List.head?_cons] at hchild
  have hne : l.head? ≠ some a := fun he => hnodup.1 (List.mem_of_mem_head? he)
  have hremove : tlistRemove h.links (h.child p) a =
      (((h.links.setPrev? l.head? none).setPrev a none).setNext a none, l.head?) := by
    rw [tlistRemove, hchild, if_pos rfl, hnext]
    exact if_pos hne
  have hlinks' : Linked (((h.links.setPrev? l.head? none).setPrev a none).setNext a none) none none
      l := by
    rw [linked_setNext hnodup.1, linked_setPrev hnodup.1]
    exact hlinked.setPrev_head hnodup.2 none
  have hsame (b : ℕ) (hb : b ∉ F.kids p) :
      (((h.links.setPrev? l.head? none).setPrev a none).setNext a none).next b = h.links.next b ∧
        (((h.links.setPrev? l.head? none).setPrev a none).setNext a none).prev b =
          h.links.prev b := by
    rw [hkids, List.mem_cons, not_or] at hb
    constructor
    · rw [Links.setNext_next_ne _ _ hb.1, Links.setPrev_next, Links.setPrev?_next]
    · rw [Links.setNext_prev, Links.setPrev_prev_ne _ _ hb.1, Links.setPrev?_prev_ne]
      exact fun he => hb.2 (List.mem_of_mem_head? he)
  have hrest (b : ℕ) (hb : b ∈ l) : h.parent b = none := hs.rest p b (by rw [hkids]; exact hb)
  rw [TallocHeap.unhook, hparent]
  simp only [hremove]
  cases hl : l.head? with
  | none =>
    rw [hl] at hlinks' hsame
    refine ⟨hs.rewrite hap (herase ▸ hlinks') ?_ (by rw [herase, hl]) ?_ ?_ rfl rfl rfl, rfl, rfl⟩
    · exact fun b hb => ⟨(hsame b hb).1, (hsame b hb).2, rfl⟩
    · simp [herase, hl]
    · rw [herase]
      exact fun b hb => hrest b (List.mem_of_mem_tail hb)
  | some first =>
    rw [hl] at hlinks' hsame
    have hfirst : first ∈ l := List.mem_of_mem_head? hl
    refine ⟨hs.rewrite hap (herase ▸ hlinks') ?_ (by rw [herase, hl]) ?_ ?_ rfl rfl rfl, rfl, rfl⟩
    · intro b hb
      refine ⟨(hsame b hb).1, (hsame b hb).2, Function.update_of_ne ?_ ..⟩
      rintro rfl
      exact hb (by rw [hkids]; simp [hfirst])
    · rw [herase, hl]
      rintro b ⟨⟩
      exact Function.update_self ..
    · rw [herase]
      intro b hb
      change Function.update h.parent first (some p) b = none
      cases l with
      | nil => simp at hb
      | cons c l =>
        obtain rfl : c = first := by simpa using hl
        have hbc : b ≠ c := ne_of_mem_of_not_mem hb (List.nodup_cons.mp hnodup.2).1
        rw [Function.update_of_ne hbc]
        exact hrest b (List.mem_cons_of_mem _ hb)

theorem TallocShape.unhook_later {c : ℕ} {l₁ l₂ : List ℕ} (hs : TallocShape F none h)
    (hkids : F.kids p = (c :: l₁) ++ a :: l₂) :
    TallocShape (F.detach a) (some a) (h.unhook a) ∧ TallocSame h (h.unhook a) := by
  have hap : a ∈ F.kids p := by simp [hkids]
  have hp := (F.kid_mem p a hap).1
  have hnodup := F.nodup p
  rw [hkids] at hnodup
  have hnot : a ∉ c :: l₁ := fun hm => (List.nodup_append.mp hnodup).2.2 a hm a (by simp) rfl
  have herase : (F.kids p).erase a = (c :: l₁) ++ l₂ := by
    rw [hkids, List.erase_append_right _ hnot, List.erase_cons_head]
  have hsiblings : Linked h.links none none ((c :: l₁) ++ a :: l₂) := hkids ▸ hs.siblings p
  obtain ⟨-, hprev, hnext, -⟩ := linked_append.mp hsiblings
  have hparent : h.parent a = none := hs.rest p a (by rw [hkids]; simp)
  have hunlinked := hsiblings.unlink hnodup
  rw [Option.or_none, Option.or_none] at hunlinked
  rw [Option.or_none] at hprev hnext
  have hrest (b : ℕ) (hb : b ∈ l₁ ++ a :: l₂) : h.parent b = none :=
    hs.rest p b (by rw [hkids]; exact hb)
  have hlinks : (h.unhook a).links =
      (h.links.setNext? (c :: l₁).getLast? l₂.head?).setPrev? l₂.head? (c :: l₁).getLast? := by
    rw [TallocHeap.unhook, hparent]
    simp only [Links.setNext?_prev]
    have hself : (h.links.setNext? (h.links.prev a) (h.links.next a)).next a = h.links.next a := by
      apply Links.setNext?_next_ne
      rw [hprev]
      exact fun he => hnot (List.mem_of_mem_getLast? he)
    rw [hself, hprev, hnext]
  have hfields : (h.unhook a).parent = h.parent ∧ (h.unhook a).child = h.child ∧
      (h.unhook a).live = h.live ∧ (h.unhook a).refs = h.refs ∧
      (h.unhook a).destructor = h.destructor ∧ TallocSame h (h.unhook a) := by
    rw [TallocHeap.unhook, hparent]
    exact ⟨rfl, rfl, rfl, rfl, rfl, rfl, rfl⟩
  obtain ⟨hparents, hchilds, hlive, hrefs, hdestructor, hsame⟩ := hfields
  refine ⟨hs.rewrite hap ?_ ?_ ?_ ?_ ?_ hlive hrefs hdestructor, hsame⟩
  · rw [herase, hlinks]
    exact hunlinked
  · intro b hb
    rw [hkids] at hb
    rw [hlinks, hparents, Links.setPrev?_next, Links.setNext?_next_ne, Links.setPrev?_prev_ne,
      Links.setNext?_prev]
    · exact ⟨rfl, rfl, rfl⟩
    · exact fun he => hb (by simp [List.mem_of_mem_head? he])
    · exact fun he => hb (List.mem_append_left _ (List.mem_of_mem_getLast? he))
  · rw [hchilds, herase, List.cons_append, List.head?_cons]
    have hchild := hs.child p hp
    rw [hkids, List.cons_append, List.head?_cons] at hchild
    exact (Function.update_eq_self_iff.mpr hchild.symm).symm
  · rw [herase, hparents]
    rintro b ⟨⟩
    exact hs.first p _ (by rw [hkids]; rfl)
  · rw [herase, hparents]
    intro b hb
    apply hrest
    simp only [List.cons_append, List.tail_cons, List.mem_append, List.mem_cons] at hb ⊢
    tauto

theorem TallocShape.unhook_root (hs : TallocShape F none h) (ha : F.IsRoot a) :
    TallocShape (F.detach a) (some a) (h.unhook a) ∧ TallocSame h (h.unhook a) := by
  obtain ⟨hnext, hprev, hparent⟩ := hs.root a ha (by simp)
  have hunhook : h.unhook a = h := by
    rw [TallocHeap.unhook, hparent]
    simp only [hnext, hprev, Links.setNext?, Links.setPrev?]
  have hdetach : F.detach a = F := by
    apply Forest.ext
    · rfl
    · funext p
      exact detach_kids_other (ha.2 p)
  rw [hunhook, hdetach]
  exact ⟨{ hs with root := fun b hb _ => hs.root b hb (by simp) }, rfl, rfl⟩

theorem TallocShape.unhook (hs : TallocShape F none h) (ha : a ∈ F.nodes) :
    TallocShape (F.detach a) (some a) (h.unhook a) ∧ TallocSame h (h.unhook a) := by
  by_cases hroot : ∃ p, a ∈ F.kids p
  · obtain ⟨p, hp⟩ := hroot
    obtain ⟨l₁, l₂, hkids⟩ := List.append_of_mem hp
    cases l₁ with
    | nil => exact hs.unhook_first hkids
    | cons c l₁ => exact hs.unhook_later hkids
  · exact hs.unhook_root ⟨ha, not_exists.mp hroot⟩

theorem kids_nil (ha : a ∉ F.nodes) : F.kids a = [] :=
  List.eq_nil_iff_forall_not_mem.mpr (fun b hb => ha (F.kid_mem a b hb).1)

theorem insert_isRoot (ha : a ∉ F.nodes) : (F.insert a).IsRoot a :=
  ⟨.inl rfl, fun p hm => ha (F.kid_mem p a hm).2⟩

theorem insert_not_under (ha : a ∉ F.nodes) (hp : p ∈ F.nodes) : ¬ (F.insert a).Under p a := by
  intro h
  rcases Relation.ReflTransGen.cases_tail h with rfl | ⟨b, -, hb⟩
  · exact ha hp
  · have hnil : b ∈ F.kids a := hb
    rw [kids_nil ha] at hnil
    simp at hnil

theorem TallocShape.tied (hs : TallocShape F (some a) h) (ha : F.IsRoot a) :
    TallocShape F none { h with
      links := (h.links.setPrev a none).setNext a none
      parent := Function.update h.parent a none } := by
  have hne {q b : ℕ} (hb : b ∈ F.kids q) : b ≠ a := ne_of_mem_of_not_mem hb (ha.2 q)
  refine ⟨hs.live, hs.child, fun q => ?_, fun q b hb => ?_, fun q b hb => ?_, fun b hb _ => ?_,
    hs.plain⟩
  · rw [linked_setNext (ha.2 q), linked_setPrev (ha.2 q)]
    exact hs.siblings q
  · exact (Function.update_of_ne (hne (List.mem_of_mem_head? hb)) ..).trans (hs.first q b hb)
  · exact (Function.update_of_ne (hne (List.mem_of_mem_tail hb)) ..).trans (hs.rest q b hb)
  · by_cases hba : b = a
    · subst hba
      exact ⟨Links.setNext_next_self .., Links.setPrev_prev_self .., Function.update_self ..⟩
    · obtain ⟨hnext, hprev, hparent⟩ := hs.root b hb (fun he => hba (Option.some.inj he).symm)
      refine ⟨?_, ?_, ?_⟩
      · rw [Links.setNext_next_ne _ _ hba]
        exact hnext
      · rw [Links.setNext_prev, Links.setPrev_prev_ne _ _ hba]
        exact hprev
      · exact (Function.update_of_ne hba ..).trans hparent

theorem TallocShape.newChunk (hs : TallocShape F none h) (ha : a ∉ F.nodes) (size : ℕ) :
    TallocShape (F.insert a) (some a) { h with
      live := Function.update h.live a true
      size := Function.update h.size a size
      destructor := Function.update h.destructor a .null
      child := Function.update h.child a none
      name := Function.update h.name a .null
      refs := Function.update h.refs a none } := by
  have hne {b : ℕ} (hb : b ∈ F.nodes) : b ≠ a := ne_of_mem_of_not_mem hb ha
  refine ⟨fun b => ?_, fun p hp => ?_, hs.siblings, hs.first, hs.rest, fun b hb hloose => ?_,
    fun b hb => ?_⟩
  · by_cases hba : b = a
    · subst hba
      simp [Forest.insert]
    · have hlive := hs.live b
      simp [Forest.insert, hba, hlive]
  · rcases hp with rfl | hp
    · change Function.update h.child p none p = (F.kids p).head?
      rw [Function.update_self, kids_nil ha]
      rfl
    · exact (Function.update_of_ne (hne hp) ..).trans (hs.child p hp)
  · rcases hb.1 with rfl | hmem
    · exact absurd rfl hloose
    · exact hs.root b ⟨hmem, hb.2⟩ (by simp)
  · rcases hb with rfl | hb
    · exact ⟨Function.update_self .., Function.update_self ..⟩
    · have hplain := hs.plain b hb
      exact ⟨(Function.update_of_ne (hne hb) ..).trans hplain.1,
        (Function.update_of_ne (hne hb) ..).trans hplain.2⟩

theorem TallocShape.chunkFromPtr (hs : TallocShape F loose h) (ha : a ∈ F.nodes) :
    h.chunkFromPtr a = some a :=
  if_pos ((hs.live a).mpr ha)

theorem TallocShape.dead (hs : TallocShape (F.detach a) (some a) h) (ha : F.kids a = [])
    [DecidablePred (· ∈ ({a} : Set ℕ))] :
    TallocShape (F.without {a}) none { h with live := Function.update h.live a false } := by
  have hkids (p : ℕ) (hp : p ≠ a) : (F.without {a}).kids p = (F.detach a).kids p := by
    change (if p ∈ ({a} : Set ℕ) then [] else (F.kids p).filter (· ∉ ({a} : Set ℕ))) =
      (F.kids p).erase a
    rw [if_neg (by simpa using hp), (F.nodup p).erase_eq_filter]
    exact List.filter_congr (fun b _ => by by_cases hb : b = a <;> simp [hb])
  have hself : (F.without {a}).kids a = (F.detach a).kids a := by
    change (if a ∈ ({a} : Set ℕ) then [] else _) = (F.kids a).erase a
    rw [if_pos (by simp), ha]
    rfl
  have hall : (F.without {a}).kids = (F.detach a).kids := by
    funext p
    by_cases hp : p = a
    · rw [hp, hself]
    · exact hkids p hp
  refine ⟨fun b => ?_, fun p hp => ?_, fun p => ?_, fun p b hb => ?_, fun p b hb => ?_,
    fun b hb _ => ?_, fun b hb => hs.plain b hb.1⟩
  · by_cases hba : b = a
    · subst hba
      simp [Forest.without]
    · have hlive := hs.live b
      simp only [Function.update_of_ne hba, Forest.without, Set.mem_sdiff, Set.mem_singleton_iff,
        hba, not_false_eq_true, and_true]
      exact hlive
  · rw [hall]
    exact hs.child p hp.1
  · rw [hall]
    exact hs.siblings p
  · rw [hall] at hb
    exact hs.first p b hb
  · rw [hall] at hb
    exact hs.rest p b hb
  · have hne : b ≠ a := by simpa using hb.1.2
    exact hs.root b ⟨hb.1.1, by simpa [hall] using hb.2⟩ (fun he => hne (Option.some.inj he).symm)

theorem TallocSame.trans {h₁ h₂ h₃ : TallocHeap} (h : TallocSame h₁ h₂) (h' : TallocSame h₂ h₃) :
    TallocSame h₁ h₃ :=
  ⟨h'.size.trans h.size, h'.nullContext.trans h.nullContext⟩

open Classical in
theorem TallocShape.free_leaf (hs : TallocShape F none h) (ha : a ∈ F.nodes) (hkids : F.kids a = []) :
    TallocShape (F.without {a}) none
        { h.unhook a with live := Function.update (h.unhook a).live a false } ∧
      TallocSame h { h.unhook a with live := Function.update (h.unhook a).live a false } := by
  obtain ⟨hshape, hsame⟩ := hs.unhook ha
  exact ⟨hshape.dead hkids, hsame.size, hsame.nullContext⟩

open Classical in
def FreesChildren (n : ℕ) : Prop :=
  ∀ (F : Forest ℕ) (h : TallocHeap) (a : ℕ) (below : List ℕ) (fuel : ℕ), TallocShape F none h →
    a ∈ F.nodes → F.Listing (F.kids a) below → below.length ≤ n → 3 * below.length + 1 ≤ fuel →
    ∃ h', TallocHeap.tallocFreeChildren fuel h a = some h' ∧
      TallocShape (F.without {x | x ∈ below}) none h' ∧ TallocSame h h'

open Classical in
def FreesTree (n : ℕ) : Prop :=
  ∀ (F : Forest ℕ) (h : TallocHeap) (a : ℕ) (below : List ℕ) (fuel : ℕ), TallocShape F none h →
    a ∈ F.nodes → F.Listing (F.kids a) below → below.length ≤ n → 3 * below.length + 3 ≤ fuel →
    ∃ h', TallocHeap.tallocFree fuel h a = some (0, h') ∧
      TallocShape (F.without {x | x ∈ a :: below}) none h' ∧ TallocSame h h'

theorem freesChildren_of_smaller {n : ℕ} (ih : ∀ m < n, FreesChildren m ∧ FreesTree m) :
    FreesChildren n := by
  intro F h a below fuel hs ha hl hlen hfuel
  obtain ⟨fuel, rfl⟩ : ∃ fuel', fuel = fuel' + 1 := ⟨fuel - 1, by omega⟩
  rw [TallocHeap.tallocFreeChildren, hs.chunkFromPtr ha, Option.bind_eq_bind, Option.bind_some,
    hs.child a ha]
  cases hkids : F.kids a with
  | nil =>
    rw [hkids] at hl
    cases hl
    refine ⟨h, rfl, ?_, rfl, rfl⟩
    have hempty : {x : ℕ | x ∈ ([] : List ℕ)} = ∅ := by simp
    simpa only [hempty, Forest.without_empty] using hs
  | cons c rest =>
    rw [hkids] at hl
    cases hl with
    | @cons _ _ belowC others hbelow hothers =>
      have hc := (F.kid_mem a c (by simp [hkids])).2
      simp only [List.length_append, List.length_cons] at hlen hfuel
      obtain ⟨h₁, hfree, hs₁, hsame₁⟩ := (ih belowC.length (by omega)).2 F h c belowC fuel hs hc
        hbelow le_rfl (by omega)
      have hS (x : ℕ) : x ∈ {x | x ∈ c :: belowC} ↔ F.Under x c := by
        have hone : F.Listing [c] (c :: belowC) := by
          simpa using Forest.Listing.cons hbelow .nil
        simpa using hone.mem_iff (x := x)
      -- the loop goes on with the other children, which are as they were
      obtain ⟨hkids₁, hothers₁⟩ := hothers.without_first hkids hS
      have ha₁ : a ∈ (F.without {x | x ∈ c :: belowC}).nodes := by
        refine ⟨ha, fun hm => ?_⟩
        exact Forest.not_under_kid (by simp [hkids]) ((hS a).mp hm)
      obtain ⟨h₂, hrest, hs₂, hsame₂⟩ := (ih others.length (by omega)).1 _ h₁ a others fuel hs₁ ha₁
        (by rw [hkids₁]; exact hothers₁) le_rfl (by omega)
      refine ⟨h₂, ?_, ?_, hsame₁.trans hsame₂⟩
      · simp only [List.head?_cons, (hs.plain c hc).1, hfree]
        exact hrest
      · have hunion : {x | x ∈ c :: belowC} ∪ {x | x ∈ others} = {x | x ∈ c :: belowC ++ others} := by
          ext x
          simp [or_assoc]
        rw [Forest.without_without] at hs₂
        simpa only [hunion] using hs₂

theorem freesTree_of_children {n : ℕ} (hchildren : FreesChildren n) : FreesTree n := by
  intro F h a below fuel hs ha hl hlen hfuel
  obtain ⟨fuel, rfl⟩ : ∃ fuel', fuel = fuel' + 2 := ⟨fuel - 2, by omega⟩
  obtain ⟨h₁, hkids, hs₁, hsame₁⟩ := hchildren F h a below fuel hs ha hl hlen (by omega)
  have hout : a ∉ {x | x ∈ below} := by
    intro hm
    obtain ⟨c, hc, hac⟩ := hl.mem_iff.mp hm
    exact Forest.not_under_kid hc hac
  have hgone : (F.without {x | x ∈ below}).kids a = [] := by
    change (if a ∈ {x | x ∈ below} then [] else (F.kids a).filter (· ∉ {x | x ∈ below})) = []
    rw [if_neg hout, List.filter_eq_nil_iff]
    intro c hc
    simpa using hl.mem_iff.mpr ⟨c, hc, .refl⟩
  obtain ⟨hs₂, hsame₂⟩ := hs₁.free_leaf ⟨ha, hout⟩ hgone
  refine ⟨_, ?_, ?_, hsame₁.trans hsame₂⟩
  · have hplain := hs.plain a ha
    rw [TallocHeap.tallocFree, hs.chunkFromPtr ha, Option.bind_eq_bind, Option.bind_some,
      hplain.1, hplain.2, TallocHeap.freeChunk, hkids]
    rfl
  · have hunion : {x | x ∈ below} ∪ {a} = {x | x ∈ a :: below} := by
      ext x
      simp
    rw [Forest.without_without] at hs₂
    simpa only [hunion] using hs₂

theorem freesTree (n : ℕ) : FreesTree n := by
  have hboth : FreesChildren n ∧ FreesTree n := by
    induction n using Nat.strong_induction_on with
    | _ n ih =>
      have hchildren := freesChildren_of_smaller ih
      exact ⟨hchildren, freesTree_of_children hchildren⟩
  exact hboth.2

end

end SystemTestSuite.GsmDaemon
