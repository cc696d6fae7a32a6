import Mathlib.Algebra.Group.Int.Defs
import SystemTestSuite.Library.LinkedList

/-!
The allocator of the daemon, `gsmd/talloc.c`. A chunk is an address and so is the pointer behind its
header; a field of the chunks is a function of the address. A chunk is live from `malloc` to `free`,
that is while its magic is `TALLOC_MAGIC`; a result `none` is an abort, or that the fuel is used up.
-/

namespace SystemTestSuite.GsmDaemon

open Library

/-- `minusOne` marks a destructor that is running. Nothing but `talloc_reference` sets one. -/
inductive TallocDestructor
  | null
  | minusOne
  | reference
  deriving DecidableEq, Repr

/-- `null` of a name stands for no name, `reference` for `TALLOC_MAGIC_REFERENCE`. -/
inductive TallocName
  | null
  | reference
  | text (name : String)
  deriving DecidableEq, Repr

/-- `handleLinks` and `handlePtr` are the fields of the `talloc_reference_handle` in a chunk. -/
structure TallocHeap where
  live : ℕ → Bool
  links : Links ℕ
  parent : ℕ → Option ℕ
  child : ℕ → Option ℕ
  refs : ℕ → Option ℕ
  size : ℕ → ℕ
  destructor : ℕ → TallocDestructor
  name : ℕ → TallocName
  handleLinks : Links ℕ
  handlePtr : ℕ → ℕ
  nullContext : Option ℕ

def tallocMaxSize : ℕ := 0x10000000

def tlistAdd (k : Links ℕ) (list : Option ℕ) (p : ℕ) : Links ℕ × Option ℕ :=
  match list with
  | none => ((k.setPrev p none).setNext p none, some p)
  | some first => (((k.setPrev first (some p)).setNext p (some first)).setPrev p none, some p)

def tlistRemove (k : Links ℕ) (list : Option ℕ) (p : ℕ) : Links ℕ × Option ℕ :=
  let r :=
    if list = some p then
      let list := k.next p
      (k.setPrev? list none, list)
    else
      let k := k.setNext? (k.prev p) (k.next p)
      (k.setPrev? (k.next p) (k.prev p), list)
  if r.2 ≠ some p then ((r.1.setPrev p none).setNext p none, r.2) else r

namespace TallocHeap

def chunkFromPtr (h : TallocHeap) (ptr : ℕ) : Option ℕ := if h.live ptr then some ptr else none

def firstSibling (h : TallocHeap) : ℕ → ℕ → Option ℕ
  | 0, _ => none
  | fuel + 1, tc =>
    match h.links.prev tc with
    | some prev => firstSibling h fuel prev
    | none => some tc

def parentChunk (h : TallocHeap) (fuel ptr : ℕ) : Option (Option ℕ) := do
  let tc ← h.chunkFromPtr ptr
  let tc ← h.firstSibling fuel tc
  some (h.parent tc)

def hookChild (h : TallocHeap) (parent tc : ℕ) : TallocHeap :=
  let h := { h with parent := Function.update h.parent tc (some parent) }
  let h := match h.child parent with
    | some first => { h with parent := Function.update h.parent first none }
    | none => h
  let r := tlistAdd h.links (h.child parent) tc
  { h with
    links := r.1
    child := Function.update h.child parent r.2 }

def unhook (h : TallocHeap) (tc : ℕ) : TallocHeap :=
  match h.parent tc with
  | some parent =>
    let r := tlistRemove h.links (h.child parent) tc
    let h := { h with
      links := r.1
      child := Function.update h.child parent r.2 }
    match r.2 with
    | some first => { h with parent := Function.update h.parent first (some parent) }
    | none => h
  | none =>
    let k := h.links.setNext? (h.links.prev tc) (h.links.next tc)
    { h with links := k.setPrev? (k.next tc) (k.prev tc) }

def talloc (h : TallocHeap) (context : Option ℕ) (size : ℕ) (malloc : Option ℕ) :
    Option (Option ℕ × TallocHeap) :=
  let context := context.or h.nullContext
  if size ≥ tallocMaxSize then some (none, h)
  else
    match malloc with
    | none => some (none, h)
    | some tc =>
      let h := { h with
        live := Function.update h.live tc true
        size := Function.update h.size tc size
        destructor := Function.update h.destructor tc .null
        child := Function.update h.child tc none
        name := Function.update h.name tc .null
        refs := Function.update h.refs tc none }
      match context with
      | some ptr => do
        let parent ← h.chunkFromPtr ptr
        some (some tc, h.hookChild parent tc)
      | none =>
        some (some tc, { h with
          links := (h.links.setPrev tc none).setNext tc none
          parent := Function.update h.parent tc none })

def setNameConst (h : TallocHeap) (ptr : ℕ) (name : TallocName) : Option TallocHeap := do
  let tc ← h.chunkFromPtr ptr
  some { h with name := Function.update h.name tc name }

def tallocNamedConst (h : TallocHeap) (context : Option ℕ) (size : ℕ) (name : TallocName)
    (malloc : Option ℕ) : Option (Option ℕ × TallocHeap) := do
  let r ← h.talloc context size malloc
  match r.1 with
  | none => some r
  | some ptr => do
    let h ← r.2.setNameConst ptr name
    some (some ptr, h)

def tallocSteal (h : TallocHeap) (newCtx : Option ℕ) (ptr : ℕ) : Option TallocHeap := do
  let tc ← h.chunkFromPtr ptr
  match newCtx.or h.nullContext with
  | none =>
    let h := h.unhook tc
    some { h with
      parent := Function.update h.parent tc none
      links := (h.links.setPrev tc none).setNext tc none }
  | some ctx => do
    let newTc ← h.chunkFromPtr ctx
    if tc = newTc then some h else some ((h.unhook tc).hookChild newTc tc)

mutual

def tallocFree : ℕ → TallocHeap → ℕ → Option (ℤ × TallocHeap)
  | 0, _, _ => none
  | fuel + 1, h, ptr => do
    let tc ← h.chunkFromPtr ptr
    match h.refs tc with
    | some handle => do
      let h ← referenceDestructor fuel h handle
      some (-1, h)
    | none =>
      match h.destructor tc with
      | .minusOne => some (-1, h)
      | .reference => do
        let h := { h with destructor := Function.update h.destructor tc .minusOne }
        let h ← referenceDestructor fuel h tc
        freeChunk fuel { h with destructor := Function.update h.destructor tc .null } tc
      | .null => freeChunk fuel h tc

def freeChunk : ℕ → TallocHeap → ℕ → Option (ℤ × TallocHeap)
  | 0, _, _ => none
  | fuel + 1, h, tc => do
    let h ← tallocFreeChildren fuel h tc
    let h := h.unhook tc
    some (0, { h with live := Function.update h.live tc false })

def referenceDestructor : ℕ → TallocHeap → ℕ → Option TallocHeap
  | 0, _, _ => none
  | fuel + 1, h, handle => do
    let tc1 ← h.chunkFromPtr handle
    let tc2 ← h.chunkFromPtr (h.handlePtr handle)
    let h := if h.destructor tc1 ≠ .minusOne then
        { h with destructor := Function.update h.destructor tc1 .null }
      else h
    let r := tlistRemove h.handleLinks (h.refs tc2) handle
    let h := { h with
      handleLinks := r.1
      refs := Function.update h.refs tc2 r.2 }
    let r ← tallocFree fuel h handle
    some r.2

def tallocFreeChildren : ℕ → TallocHeap → ℕ → Option TallocHeap
  | 0, _, _ => none
  | fuel + 1, h, ptr => do
    let tc ← h.chunkFromPtr ptr
    match h.child tc with
    | none => some h
    | some child => do
      let newParent ← match h.refs child with
        | some handle => do
          let p ← h.parentChunk fuel handle
          some (p.or h.nullContext)
        | none => some h.nullContext
      let r ← tallocFree fuel h child
      if r.1 = -1 then do
        let newParent ← if newParent = r.2.nullContext then do
            let p ← r.2.parentChunk fuel ptr
            some (p.or newParent)
          else some newParent
        let h ← r.2.tallocSteal newParent child
        tallocFreeChildren fuel h ptr
      else tallocFreeChildren fuel r.2 ptr

end

def moveChunk (h : TallocHeap) (tc new : ℕ) : TallocHeap :=
  { h with
    live := Function.update (Function.update h.live tc false) new true
    links := (h.links.setPrev new (h.links.prev tc)).setNext new (h.links.next tc)
    parent := Function.update h.parent new (h.parent tc)
    child := Function.update h.child new (h.child tc)
    refs := Function.update h.refs new (h.refs tc)
    size := Function.update h.size new (h.size tc)
    destructor := Function.update h.destructor new (h.destructor tc)
    name := Function.update h.name new (h.name tc)
    handleLinks := (h.handleLinks.setPrev new (h.handleLinks.prev tc)).setNext new
      (h.handleLinks.next tc)
    handlePtr := Function.update h.handlePtr new (h.handlePtr tc) }

def repoint (h : TallocHeap) (tc : ℕ) : TallocHeap :=
  let h := match h.parent tc with
    | some parent => { h with child := Function.update h.child parent (some tc) }
    | none => h
  let h := match h.child tc with
    | some child => { h with parent := Function.update h.parent child (some tc) }
    | none => h
  let k := h.links.setNext? (h.links.prev tc) (some tc)
  { h with links := k.setPrev? (k.next tc) (some tc) }

def tallocRealloc (fuel : ℕ) (h : TallocHeap) (context ptr : Option ℕ) (size : ℕ)
    (name : TallocName) (realloc : Option ℕ) : Option (Option ℕ × TallocHeap) :=
  if size = 0 then
    match ptr with
    | none => some (none, h)
    | some ptr => do
      let r ← tallocFree fuel h ptr
      some (none, r.2)
  else if size ≥ tallocMaxSize then some (none, h)
  else
    match ptr with
    | none => h.tallocNamedConst context size name realloc
    | some ptr => do
      let tc ← h.chunkFromPtr ptr
      if (h.refs tc).isSome then some (none, h)
      else
        match realloc with
        | none => some (none, h)
        | some new => do
          let h := (h.moveChunk tc new).repoint new
          let h ← { h with size := Function.update h.size new size }.setNameConst new name
          some (some new, h)

/-- The sum of `talloc_total_size` and `talloc_total_blocks`, where `weight` is what a chunk counts;
the sums do not reach 2 ^ 31. -/
def tallocTotal (weight : ℕ → ℕ) : ℕ → TallocHeap → ℕ → Option ℕ
  | 0, _, _ => none
  | fuel + 1, h, ptr => do
    let tc ← h.chunkFromPtr ptr
    tallocTotalLoop weight fuel h (h.child tc) (weight tc)
where
  /-- The loop over the children from `c` on. -/
  tallocTotalLoop (weight : ℕ → ℕ) : ℕ → TallocHeap → Option ℕ → ℕ → Option ℕ
    | 0, _, _, _ => none
    | _ + 1, _, none, total => some total
    | fuel + 1, h, some c, total => do
      let n ← tallocTotal weight fuel h c
      tallocTotalLoop weight fuel h (h.links.next c) (total + n)

def tallocTotalSize (fuel : ℕ) (h : TallocHeap) (ptr : ℕ) : Option ℕ :=
  tallocTotal h.size fuel h ptr

def tallocTotalBlocks (fuel : ℕ) (h : TallocHeap) (ptr : ℕ) : Option ℕ :=
  tallocTotal (fun _ => 1) fuel h ptr

end TallocHeap

end SystemTestSuite.GsmDaemon
