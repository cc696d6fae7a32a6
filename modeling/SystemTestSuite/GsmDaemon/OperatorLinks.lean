import SystemTestSuite.GsmDaemon.LinuxList
import SystemTestSuite.GsmDaemon.OperatorCache

namespace SystemTestSuite.GsmDaemon

open Library

/-- `opname` is what a record holds, `freed` are the blocks given back. -/
structure OpnameBlocks where
  links : Links ℕ
  opname : ℕ → Opname
  freed : List ℕ

def opnameVisit (op : Opname) (cur : ℕ) (s : OpnameBlocks) : OpnameBlocks :=
  if op.mcc = (s.opname cur).mcc ∧ op.mnc = (s.opname cur).mnc then
    { s with
      links := llistDel s.links cur
      freed := s.freed ++ [cur] }
  else s

def opnameAddBlock (operators rounds op : ℕ) (s : OpnameBlocks) : Option OpnameBlocks := do
  let first := s.links.next operators
  let s ← llistForEachSafe OpnameBlocks.links (opnameVisit (s.opname op)) operators rounds first
    (first.bind s.links.next) s
  some { s with links := llistAddTail s.links op operators }

def newOpname (heap : Memory) (numericBcdString alnumLong : Bytes) : Opname :=
  let mcc := (cstr numericBcdString).take 3
  let mnc := (cstr numericBcdString).drop 3
  { mcc := UInt16.ofInt (atoi mcc)
    mnc := UInt8.ofInt (atoi mnc)
    alnumLong := heap.store 0 (strncpy alnumLong alnumLongCopied) }

def gsmdOpnameAddBlock (operators rounds op : ℕ) (heap : Memory) (s : OpnameBlocks)
    (numericBcdString alnumLong : Bytes) : Option (ℤ × OpnameBlocks) :=
  if (cstr numericBcdString).length ≠ 5 then some (-EINVAL, s)
  else
    let block := newOpname heap numericBcdString alnumLong
    (opnameAddBlock operators rounds op
      { s with opname := Function.update s.opname op block }).map (0, ·)

structure BlockCall where
  op : ℕ
  heap : Memory
  code : Bytes
  name : Bytes

def BlockCall.allocated (c : BlockCall) : List ℕ := if (cstr c.code).length ≠ 5 then [] else [c.op]

/-- Calls one after the other. An allocated block is none of the list; it may be one that was
freed. -/
inductive BlockRun (operators : ℕ) : OpnameBlocks → List ℕ → List BlockCall → OpnameBlocks →
    List ℕ → Prop
  | nil (s : OpnameBlocks) (l : List ℕ) : BlockRun operators s l [] s l
  | cons {s t s' : OpnameBlocks} {l m l' : List ℕ} {c : BlockCall} {calls : List BlockCall}
      {rounds : ℕ} {rc : ℤ} : c.op ∉ operators :: l → l.length < rounds →
      gsmdOpnameAddBlock operators rounds c.op c.heap s c.code c.name = some (rc, t) →
      HoldsList t.links operators m → BlockRun operators t m calls s' l' →
      BlockRun operators s l (c :: calls) s' l'

section

variable {operators rounds op a : ℕ} {o : Opname} {s s' s₀ : OpnameBlocks}
  {l done todo : List ℕ}

def sameOperator (o cur : Opname) : Prop := o.mcc = cur.mcc ∧ o.mnc = cur.mnc

instance (o cur : Opname) : Decidable (sameOperator o cur) := inferInstanceAs (Decidable (_ ∧ _))

structure OpnameTurn (operators : ℕ) (o : Opname) (s₀ : OpnameBlocks) (l done todo : List ℕ)
    (s : OpnameBlocks) : Prop where
  split : l = done ++ todo
  list : HoldsList s.links operators
    (done.filter (fun a => ¬ sameOperator o (s₀.opname a)) ++ todo)
  opname : s.opname = s₀.opname
  freed : s.freed = s₀.freed ++ done.filter (fun a => sameOperator o (s₀.opname a))

theorem OpnameTurn.visit (h : OpnameTurn operators o s₀ l done (a :: todo) s) :
    OpnameTurn operators o s₀ l (done ++ [a]) todo (opnameVisit o a s) := by
  have hsplit : l = done ++ [a] ++ todo := by rw [h.split, List.append_assoc]; rfl
  have hlist := h.list
  by_cases hsame : sameOperator o (s₀.opname a)
  · have hvisit : opnameVisit o a s =
        { s with links := llistDel s.links a, freed := s.freed ++ [a] } := by
      rw [opnameVisit, h.opname]
      exact if_pos hsame
    have hnot : a ∉ done.filter (fun a => ¬ sameOperator o (s₀.opname a)) := by
      simp [hsame]
    rw [hvisit]
    refine ⟨hsplit, ?_, h.opname, ?_⟩
    · have hdel := hlist.del (a := a) (by simp)
      rw [List.erase_append_right _ hnot, List.erase_cons_head] at hdel
      simpa [List.filter_append, hsame] using hdel
    · simp [h.freed, List.filter_append, hsame]
  · have hvisit : opnameVisit o a s = s := by
      rw [opnameVisit, h.opname]
      exact if_neg hsame
    rw [hvisit]
    refine ⟨hsplit, ?_, h.opname, ?_⟩
    · simpa [List.filter_append, hsame] using hlist
    · simp [h.freed, List.filter_append, hsame]

theorem opnameLoop (h : HoldsList s.links operators l) (hrounds : l.length < rounds) :
    ∃ s', llistForEachSafe OpnameBlocks.links (opnameVisit o) operators rounds
        (s.links.next operators) ((s.links.next operators).bind s.links.next) s = some s' ∧
      OpnameTurn operators o s l l [] s' := by
  rw [h.first]
  obtain ⟨done, s', hresult, hturn⟩ :=
    llistForEachSafe_rule OpnameBlocks.links (opnameVisit o) operators
      (OpnameTurn operators o s l) l.length
      (fun done todo t ht => by
        refine ⟨fun hm => (List.nodup_cons.mp ht.list.2).1 (List.mem_append_right _ hm), ?_⟩
        rintro a rest rfl
        exact ht.list.next)
      (fun done todo t ht => by rw [ht.split, List.length_append])
      (fun done a todo t ht => ⟨[], fun _ => rfl, by rw [List.append_nil]; exact ht.visit⟩)
      (show OpnameTurn operators o s l [] l s from ⟨rfl, by simpa using h, rfl, by simp⟩)
      rounds ((l.head?.or (some operators)).bind s.links.next)
      (by simpa using hrounds) (by
        rintro a rest rfl
        exact @HoldsList.next _ _ _ [] _ h)
  obtain rfl : l = done := by simpa using hturn.split
  exact ⟨s', hresult, hturn⟩

theorem opnameAddBlock_refines (h : HoldsList s.links operators l) (hop : op ∉ operators :: l)
    (hrounds : l.length < rounds) : ∃ s' l', opnameAddBlock operators rounds op s = some s' ∧
      HoldsList s'.links operators l' ∧ s'.opname = s.opname ∧
      l'.map s'.opname = opnameAdd (l.map s.opname) (s.opname op) ∧
      ∃ freed, s'.freed = s.freed ++ freed ∧ (l' ++ freed).Perm (l ++ [op]) := by
  obtain ⟨t, hloop, hturn⟩ := opnameLoop (o := s.opname op) h hrounds
  have hlist := hturn.list
  rw [List.append_nil] at hlist
  have hout : op ∉ operators :: l.filter (fun a => ¬ sameOperator (s.opname op) (s.opname a)) := by
    simp only [List.mem_cons, not_or] at hop ⊢
    exact ⟨hop.1, fun hm => hop.2 (List.mem_of_mem_filter hm)⟩
  refine ⟨{ t with links := llistAddTail t.links op operators }, _, ?_, hlist.addTail hout,
    hturn.opname, ?_, l.filter (fun a => sameOperator (s.opname op) (s.opname a)), hturn.freed, ?_⟩
  · rw [opnameAddBlock, Option.bind_eq_bind, hloop]
    rfl
  · change (l.filter _ ++ [op]).map t.opname = _
    rw [hturn.opname, List.map_append, opnameAdd, List.filter_map]
    rfl
  · have hparts := List.filter_append_perm
      (fun a => decide (sameOperator (s.opname op) (s.opname a))) l
    have hnot : l.filter (fun a => ¬ sameOperator (s.opname op) (s.opname a)) =
        l.filter (fun a => ! decide (sameOperator (s.opname op) (s.opname a))) :=
      List.filter_congr (fun a _ => by simp)
    rw [hnot]
    refine List.perm_append_comm.trans ?_
    rw [← List.append_assoc]
    exact hparts.append_right [op]

theorem gsmdOpnameAdd_five {heap : Memory} {code name : Bytes} (operators : List Opname)
    (h : (cstr code).length = 5) : gsmdOpnameAdd heap operators code name =
      (0, opnameAdd operators (newOpname heap code name)) :=
  if_neg (not_not.mpr h)

theorem gsmdOpnameAddBlock_refines {heap : Memory} {code name : Bytes}
    (h : HoldsList s.links operators l) (hop : op ∉ operators :: l) (hrounds : l.length < rounds) :
    ∃ s' l', gsmdOpnameAddBlock operators rounds op heap s code name =
        some ((gsmdOpnameAdd heap (l.map s.opname) code name).1, s') ∧
      HoldsList s'.links operators l' ∧
      l'.map s'.opname = (gsmdOpnameAdd heap (l.map s.opname) code name).2 ∧
      (l' ++ s'.freed).Perm (l ++ s.freed ++ (⟨op, heap, code, name⟩ : BlockCall).allocated) := by
  rw [gsmdOpnameAddBlock, BlockCall.allocated]
  by_cases hcode : (cstr code).length = 5
  · rw [if_neg (not_not.mpr hcode), if_neg (not_not.mpr hcode), gsmdOpnameAdd_five _ hcode]
    have hout : op ∉ l := fun hm => hop (List.mem_cons_of_mem _ hm)
    have hnames : l.map (Function.update s.opname op (newOpname heap code name)) =
        l.map s.opname :=
      List.map_congr_left (fun a ha => Function.update_of_ne (ne_of_mem_of_not_mem ha hout) ..)
    obtain ⟨s', l', hadd, hlist, -, hmap, freed, hfreed, hperm⟩ := opnameAddBlock_refines
      (s := { s with opname := Function.update s.opname op (newOpname heap code name) }) h hop
        hrounds
    dsimp only at hmap hfreed
    rw [hnames, Function.update_self] at hmap
    refine ⟨s', l', by simp only [hadd, Option.map_some], hlist, hmap, ?_⟩
    calc (l' ++ s'.freed).Perm (l' ++ (freed ++ s.freed)) := by
          rw [hfreed]
          exact List.perm_append_comm.append_left l'
      _ = (l' ++ freed) ++ s.freed := (List.append_assoc ..).symm
      List.Perm _ ((l ++ [op]) ++ s.freed) := hperm.append_right s.freed
      _ = l ++ ([op] ++ s.freed) := List.append_assoc ..
      List.Perm _ (l ++ (s.freed ++ [op])) := List.perm_append_comm.append_left l
      _ = l ++ s.freed ++ [op] := (List.append_assoc ..).symm
  · rw [if_pos hcode, if_pos hcode, gsmdOpnameAdd, if_pos hcode]
    exact ⟨s, l, rfl, h, rfl, by rw [List.append_nil]⟩

def namesAfter (names : List Opname) (calls : List BlockCall) : List Opname :=
  calls.foldl (fun names c => (gsmdOpnameAdd c.heap names c.code c.name).2) names

/-- In every run of `gsmd_opname_add` the linked records hold the names of the list model, and every
block that was allocated is linked or was freed, once. -/
theorem blockRun_refines {calls : List BlockCall} {l' : List ℕ}
    (hr : BlockRun operators s l calls s' l') (h : HoldsList s.links operators l) :
    HoldsList s'.links operators l' ∧
      l'.map s'.opname = namesAfter (l.map s.opname) calls ∧
      (l' ++ s'.freed).Perm (l ++ s.freed ++ calls.flatMap BlockCall.allocated) ∧
      ∀ (c : BlockCall) (rounds : ℕ), c.op ∉ operators :: l' → l'.length < rounds →
        (gsmdOpnameAddBlock operators rounds c.op c.heap s' c.code c.name).isSome = true := by
  induction hr with
  | nil s l =>
    refine ⟨h, rfl, by simp, fun c rounds hop hrounds => ?_⟩
    obtain ⟨t, m, hcall, -⟩ := @gsmdOpnameAddBlock_refines operators _ c.op s l c.heap c.code
      c.name h hop hrounds
    rw [hcall]
    rfl
  | @cons s t s' l m l' c calls rounds rc hop hrounds hcall hm _ ih =>
    obtain ⟨t', m', hcall', hlist, hnames, hperm⟩ := @gsmdOpnameAddBlock_refines operators rounds c.op s l
      c.heap c.code c.name h hop hrounds
    rw [hcall, Option.some.injEq, Prod.mk.injEq] at hcall'
    obtain ⟨-, rfl⟩ := hcall'
    obtain rfl := hm.unique hlist
    obtain ⟨hlist', hnames', hperm', htotal⟩ := ih hm
    refine ⟨hlist', ?_, ?_, htotal⟩
    · rw [hnames', hnames]
      rfl
    · rw [List.flatMap_cons, ← List.append_assoc]
      exact hperm'.trans (hperm.append_right _)

end

def emptyCache : OpnameBlocks where
  links := initLlistHead freshLinks 0
  opname := fun _ => ⟨0, 0, Memory.zero⟩
  freed := []

theorem emptyCache_holds : HoldsList emptyCache.links 0 [] :=
  ⟨initLlistHead_circular _ 0, List.nodup_singleton 0⟩

def twoNames : List BlockCall :=
  [⟨1, Memory.zero, ascii "26203", ascii "E"⟩, ⟨2, Memory.zero, ascii "26203", ascii "E+"⟩]

theorem blockRun_refines_two : ∃ (s' : OpnameBlocks) (l' : List ℕ), HoldsList s'.links 0 l' ∧
    l'.map s'.opname = namesAfter [] twoNames ∧ (l' ++ s'.freed).Perm [1, 2] := by
  obtain ⟨s₁, l₁, hcall₁, hlist₁, -, hperm₁⟩ := @gsmdOpnameAddBlock_refines 0 1 1 _ []
    Memory.zero (ascii "26203") (ascii "E") emptyCache_holds (by decide) (by decide)
  have hmem : ∀ a ∈ l₁, a = 1 := by
    intro a ha
    have hin := hperm₁.mem_iff.mp (List.mem_append_left s₁.freed ha)
    change a ∈ [1] at hin
    exact List.mem_singleton.mp hin
  have hfresh : 2 ∉ 0 :: l₁ := by
    rw [List.mem_cons, not_or]
    exact ⟨by decide, fun hm => absurd (hmem 2 hm) (by decide)⟩
  obtain ⟨s₂, l₂, hcall₂, hlist₂, -⟩ := @gsmdOpnameAddBlock_refines 0 (l₁.length + 1) 2 s₁ l₁
    Memory.zero (ascii "26203") (ascii "E+") hlist₁ hfresh (by omega)
  obtain ⟨hlist, hnames, hperm, -⟩ := @blockRun_refines 0 _ s₂ [] twoNames l₂
    (.cons (by decide) (by decide) hcall₁ hlist₁
      (.cons hfresh (by omega) hcall₂ hlist₂ (.nil s₂ l₂))) emptyCache_holds
  exact ⟨s₂, l₂, hlist, hnames, hperm⟩

end SystemTestSuite.GsmDaemon
