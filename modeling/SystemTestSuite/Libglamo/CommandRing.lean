import SystemTestSuite.Library.Machine
import SystemTestSuite.Library.Ring
import Mathlib.Data.Nat.Bitwise

/-!
The command ring between `libglamo/dma.c` and the Glamo chip. The chip may take a word at any
time, between any two stores of `dma_cmdq_flush` too.
-/

namespace SystemTestSuite.Libglamo

open Library

def dmaCmdqSize : ℕ := 1024

def ringSize : ℕ := dmaCmdqSize / 2

/-- `lbuf` is what the loop of `dma_cmdq_flush` has still to copy and `waiting` its inner loop.
`published` counts the words up to the write address, as the chip does: it tells a full ring from
an empty one. `flushed`, `stored` and `read` record what went into `lbuf`, into the ring and to the
chip, and `holder` the number of the word that a slot got last. -/
structure DmaManager where
  cmdq : ℕ → UInt16
  r : ℕ
  w : ℕ
  flushing : Bool
  waiting : Bool
  lbuf : List UInt16
  writeAddrh : ℕ
  writeAddrl : ℕ
  published : ℕ
  flushed : List UInt16
  stored : List UInt16
  read : List UInt16
  holder : ℕ → Option ℕ

inductive DmaEvent where
  | flush (words : List UInt16)
  | store
  | poll (addrl addrh : ℕ)
  | publish
  | take
  deriving DecidableEq, Repr

structure CmdqInit (s : DmaManager) : Prop where
  r : s.r = 0
  w : s.w = 0
  flushing : s.flushing = false
  waiting : s.waiting = false
  lbuf : s.lbuf = []
  writeAddrh : s.writeAddrh = 0
  writeAddrl : s.writeAddrl = 0
  published : s.published = 0
  flushed : s.flushed = []
  stored : s.stored = []
  read : s.read = []
  holder : s.holder = fun _ => none

/-- The read address is one in bytes, 0 or the size of the ring at its end. -/
def ReadAddr (s : DmaManager) (addrl addrh : ℕ) : Prop :=
  addrl + addrh * 2 ^ 16 ≤ dmaCmdqSize ∧
    (addrl + addrh * 2 ^ 16) % dmaCmdqSize = 2 * s.read.length % dmaCmdqSize

def CmdqEnabled (s : DmaManager) : DmaEvent → Prop
  | .flush words => s.flushing = false ∧ 2 * words.length ≤ dmaCmdqSize
  | .store => s.flushing = true ∧ s.waiting = false ∧ s.lbuf ≠ []
  | .poll addrl addrh => s.waiting = true ∧ ReadAddr s addrl addrh
  | .publish => s.flushing = true ∧ s.waiting = false ∧ s.lbuf = []
  | .take => s.read.length < s.published

def dmaStore (s : DmaManager) (word : UInt16) (rest : List UInt16) : DmaManager :=
  let w := if s.w ≥ ringSize then 0 else s.w
  { s with
    cmdq := Function.update s.cmdq w word
    w := w + 1
    waiting := decide (s.r = w + 1)
    lbuf := rest
    stored := s.stored ++ [word]
    holder := Function.update s.holder w (some s.stored.length) }

def cmdqNext (s : DmaManager) : DmaEvent → DmaManager
  | .flush words =>
    if words = [] then s
    else { s with flushing := true, lbuf := words, flushed := s.flushed ++ words }
  | .store =>
    match s.lbuf with
    | [] => s
    | word :: rest => dmaStore s word rest
  | .poll addrl addrh =>
    let r := addrl ||| ((addrh &&& 7) <<< 16)
    { s with r := r, waiting := decide (r = s.w) }
  | .publish =>
    { s with
      writeAddrh := (s.w >>> 15) &&& 7
      writeAddrl := (s.w <<< 1) &&& 0xffff
      published := s.stored.length
      flushing := false }
  | .take => { s with read := s.read ++ [s.cmdq (s.read.length % ringSize)] }

def cmdqMachine : Machine DmaManager DmaEvent := ⟨CmdqInit, CmdqEnabled, cmdqNext⟩

instance (s : DmaManager) : (e : DmaEvent) → Decidable (cmdqMachine.enabled s e)
  | .flush _ | .publish => inferInstanceAs (Decidable (_ ∧ _))
  | .store => inferInstanceAs (Decidable (_ ∧ _ ∧ _ ≠ _))
  | .poll _ _ => inferInstanceAs (Decidable (_ ∧ _ ∧ _))
  | .take => inferInstanceAs (Decidable (_ < _))

/-- No word is overwritten before the chip has it, and what the chip has is the front of what was
flushed. -/
structure Delivers (s : DmaManager) : Prop where
  kept : ∀ m, s.read.length ≤ m → m < s.stored.length → ∃ slot, s.holder slot = some m
  front : s.read <+: s.flushed

def StoresBehind (s : DmaManager) : DmaEvent → Prop
  | .store => s.stored.length < s.read.length + ringSize
  | _ => True

structure CmdqInv (s : DmaManager) : Prop where
  filled : RingFilled ringSize s.stored.length s.holder
  cells : ∀ slot m, s.holder slot = some m → s.stored[m]? = some (s.cmdq slot)
  copied : s.stored ++ s.lbuf = s.flushed
  idle : s.flushing = false → s.lbuf = []
  position : s.w ≤ ringSize ∧ s.w % ringSize = s.stored.length % ringSize
  taken : s.read.length ≤ s.published ∧ s.published ≤ s.stored.length
  addr : (s.writeAddrl + s.writeAddrh * 2 ^ 16) % dmaCmdqSize = 2 * s.published % dmaCmdqSize
  behind : s.stored.length ≤ s.read.length + ringSize
  delivered : s.read <+: s.stored

theorem cmdqInv_init {s : DmaManager} (h : CmdqInit s) : CmdqInv s where
  filled := by
    rw [h.holder, h.stored]
    exact RingFilled.empty ringSize
  cells := by simp [h.holder]
  copied := by rw [h.stored, h.lbuf, h.flushed, List.append_nil]
  idle _ := h.lbuf
  position := by simp [h.w, h.stored]
  taken := by simp [h.read, h.published]
  addr := by simp [h.writeAddrl, h.writeAddrh, h.published]
  behind := by simp [h.stored]
  delivered := by simp [h.read]

theorem slot_eq {s : DmaManager} (h : CmdqInv s) :
    (if s.w ≥ ringSize then 0 else s.w) = s.stored.length % ringSize := by
  obtain ⟨hle, hmod⟩ := h.position
  rw [← hmod]
  split_ifs with hw
  · rw [Nat.le_antisymm hle hw, Nat.mod_self]
  · rw [Nat.mod_eq_of_lt (Nat.not_le.mp hw)]

theorem cmdqInv_store {s : DmaManager} (h : CmdqInv s) {word : UInt16} {rest : List UInt16}
    (hlbuf : s.lbuf = word :: rest) (hroom : s.stored.length < s.read.length + ringSize)
    (hflushing : s.flushing = true) : CmdqInv (dmaStore s word rest) := by
  have hslot := slot_eq h
  have hlt : s.stored.length % ringSize < ringSize := Nat.mod_lt _ (by decide)
  refine ⟨?_, ?_, ?_, ?_, ?_, ?_, h.addr, ?_, ?_⟩
  · simp only [dmaStore, hslot, List.length_append, List.length_singleton]
    exact h.filled.fill (by decide)
  · intro slot m hm
    simp only [dmaStore, hslot] at hm ⊢
    by_cases hhere : slot = s.stored.length % ringSize
    · rw [hhere, Function.update_self, Option.some.injEq] at hm
      rw [hhere, Function.update_self, ← hm, List.getElem?_concat_length]
    · rw [Function.update_of_ne hhere] at hm ⊢
      rw [List.getElem?_append_left ((h.filled slot m).mp hm).1]
      exact h.cells slot m hm
  · simp only [dmaStore]
    rw [← h.copied, hlbuf, List.append_assoc]
    rfl
  · intro hidle
    rw [show (dmaStore s word rest).flushing = s.flushing from rfl, hflushing] at hidle
    cases hidle
  · simp only [dmaStore, hslot, List.length_append, List.length_singleton]
    exact ⟨hlt, by rw [Nat.mod_add_mod]⟩
  · exact ⟨h.taken.1, by simpa [dmaStore] using Nat.le_succ_of_le h.taken.2⟩
  · simp only [dmaStore, List.length_append, List.length_singleton]
    exact hroom
  · exact h.delivered.trans (List.prefix_append _ _)

theorem publish_addr {w : ℕ} (hw : w ≤ ringSize) :
    ((w <<< 1) &&& 0xffff) + ((w >>> 15) &&& 7) * 2 ^ 16 = 2 * w := by
  have hsize : ringSize = 512 := rfl
  have hlow : (w <<< 1) &&& 0xffff = 2 * w := by
    rw [Nat.shiftLeft_eq, show 0xffff = 2 ^ 16 - 1 from rfl, Nat.and_two_pow_sub_one_eq_mod]
    omega
  have hhigh : w >>> 15 = 0 := by
    rw [Nat.shiftRight_eq_div_pow]
    omega
  rw [hlow, hhigh, Nat.zero_and]
  omega

theorem cmdqInv_publish {s : DmaManager} (h : CmdqInv s) (hlbuf : s.lbuf = []) :
    CmdqInv (cmdqNext s .publish) where
  filled := h.filled
  cells := h.cells
  copied := h.copied
  idle _ := hlbuf
  position := h.position
  taken := ⟨h.taken.1.trans h.taken.2, le_refl _⟩
  addr := by
    simp only [cmdqNext]
    rw [publish_addr h.position.1, show dmaCmdqSize = 2 * ringSize from rfl, Nat.mul_mod_mul_left,
      Nat.mul_mod_mul_left, h.position.2]
  behind := h.behind
  delivered := h.delivered

theorem takes_next {s : DmaManager} (h : CmdqInv s) (htake : s.read.length < s.published) :
    s.stored[s.read.length]? = some (s.cmdq (s.read.length % ringSize)) := by
  have hstored : s.read.length < s.stored.length := Nat.lt_of_lt_of_le htake h.taken.2
  have hheld := (h.filled (s.read.length % ringSize) s.read.length).mpr ⟨hstored, h.behind, rfl⟩
  exact h.cells _ _ hheld

theorem cmdqInv_take {s : DmaManager} (h : CmdqInv s) (htake : s.read.length < s.published) :
    CmdqInv (cmdqNext s .take) where
  filled := h.filled
  cells := h.cells
  copied := h.copied
  idle := h.idle
  position := h.position
  taken := by
    simp only [cmdqNext, List.length_append, List.length_singleton]
    exact ⟨htake, h.taken.2⟩
  addr := h.addr
  behind := by
    have hle := h.behind
    simp only [cmdqNext, List.length_append, List.length_singleton]
    omega
  delivered := by
    obtain ⟨rest, hrest⟩ := h.delivered
    have hnext := takes_next h htake
    rw [← hrest, List.getElem?_append_right (le_refl _), Nat.sub_self] at hnext
    cases rest with
    | nil => cases hnext
    | cons word rest =>
      obtain rfl : word = s.cmdq (s.read.length % ringSize) := by simpa using hnext
      exact ⟨rest, by simp [cmdqNext, ← hrest]⟩

theorem cmdqInv_next {s : DmaManager} {e : DmaEvent} (h : CmdqInv s) (he : CmdqEnabled s e)
    (hok : StoresBehind s e) : CmdqInv (cmdqNext s e) := by
  cases e with
  | flush words =>
    simp only [cmdqNext]
    split_ifs with hnil
    · exact h
    · have hlbuf := h.idle he.1
      refine ⟨h.filled, h.cells, ?_, by simp, h.position, h.taken, h.addr, h.behind, h.delivered⟩
      rw [← h.copied, hlbuf, List.append_nil]
  | store =>
    obtain ⟨hflushing, -, hlbuf⟩ := he
    cases hrest : s.lbuf with
    | nil => exact absurd hrest hlbuf
    | cons word rest =>
      simp only [cmdqNext, hrest]
      exact cmdqInv_store h hrest hok hflushing
  | poll addrl addrh =>
    exact ⟨h.filled, h.cells, h.copied, h.idle, h.position, h.taken, h.addr, h.behind, h.delivered⟩
  | publish => exact cmdqInv_publish h he.2.2
  | take => exact cmdqInv_take h he

theorem delivers_of_inv {s : DmaManager} (h : CmdqInv s) : Delivers s where
  kept := (h.filled.kept_iff _).mpr h.behind
  front := h.delivered.trans ⟨s.lbuf, h.copied⟩

theorem overrun_breaks {s : DmaManager} {e : DmaEvent} (h : CmdqInv s) (he : CmdqEnabled s e)
    (hover : ¬ StoresBehind s e) : ¬ Delivers (cmdqNext s e) := by
  cases e with
  | store =>
    cases hrest : s.lbuf with
    | nil => exact absurd hrest he.2.2
    | cons word rest =>
      intro hdelivers
      have hkept := hdelivers.kept
      simp only [cmdqNext, hrest, dmaStore, slot_eq h, List.length_append,
        List.length_singleton] at hkept
      have hle := ((h.filled.fill (by decide)).kept_iff _).mp hkept
      simp only [StoresBehind] at hover
      omega
  | flush words => exact absurd trivial hover
  | poll addrl addrh => exact absurd trivial hover
  | publish => exact absurd trivial hover
  | take => exact absurd trivial hover

theorem delivers_iff_storesBehind {s t : DmaManager} {es : List DmaEvent}
    (hs : cmdqMachine.start s) (hrun : cmdqMachine.Run s es t) :
    cmdqMachine.Throughout Delivers s es ↔ cmdqMachine.RunWhile StoresBehind s es t :=
  Machine.Run.throughout_iff (I := CmdqInv) (fun _ _ h he hok => cmdqInv_next h he hok)
    (fun _ => delivers_of_inv) (fun _ _ h he hover => overrun_breaks h he hover) hrun
    (cmdqInv_init hs)

def freshRing : DmaManager where
  cmdq _ := 0
  r := 0
  w := 0
  flushing := false
  waiting := false
  lbuf := []
  writeAddrh := 0
  writeAddrl := 0
  published := 0
  flushed := []
  stored := []
  read := []
  holder _ := none

theorem freshRing_init : CmdqInit freshRing :=
  ⟨rfl, rfl, rfl, rfl, rfl, rfl, rfl, rfl, rfl, rfl, rfl, rfl⟩

theorem delivers_iff_storesBehind_one :
    cmdqMachine.Throughout Delivers freshRing
      [.flush [7, 8], .store, .store, .publish, .take, .take] := by
  have hrun : cmdqMachine.RunWhile StoresBehind freshRing
      [.flush [7, 8], .store, .store, .publish, .take, .take] _ :=
    Machine.Checks.runWhile
      ⟨⟨by decide, trivial⟩, ⟨by decide, show 0 < 0 + ringSize by decide⟩,
        ⟨by decide, show 1 < 0 + ringSize by decide⟩, ⟨by decide, trivial⟩, ⟨by decide, trivial⟩,
        ⟨by decide, trivial⟩, trivial⟩
  exact (delivers_iff_storesBehind freshRing_init hrun.run).mpr hrun

theorem store_all {s : DmaManager} (hr : s.r = 0) (hwaiting : s.waiting = false)
    (hflushing : s.flushing = true)
    (hroom : s.stored.length + s.lbuf.length ≤ s.read.length + ringSize) :
    ∃ t, cmdqMachine.RunWhile StoresBehind s (List.replicate s.lbuf.length .store) t ∧
      t.r = 0 ∧ t.waiting = false ∧ t.flushing = true ∧ t.lbuf = [] ∧ t.read = s.read ∧
      t.stored.length = s.stored.length + s.lbuf.length := by
  generalize hlbuf : s.lbuf = words at hroom
  induction words generalizing s with
  | nil => exact ⟨s, .nil, hr, hwaiting, hflushing, hlbuf, rfl, rfl⟩
  | cons word rest ih =>
    rw [List.length_cons] at hroom
    have hnext : cmdqNext s .store = dmaStore s word rest := by
      simp only [cmdqNext, hlbuf]
    have hstored : (dmaStore s word rest).stored.length = s.stored.length + 1 := by
      simp [dmaStore]
    have hnowait : (dmaStore s word rest).waiting = false := by
      simp [dmaStore, hr]
    obtain ⟨t, hrun, htr, htw, htf, htl, htread, htlen⟩ :=
      @ih (dmaStore s word rest) hr hnowait hflushing rfl (by
        rw [hstored]
        exact (Nat.add_right_comm _ _ _).trans_le hroom)
    refine ⟨t, ?_, htr, htw, htf, htl, htread, ?_⟩
    · rw [← hnext] at hrun
      have henabled : cmdqMachine.enabled s .store := ⟨hflushing, hwaiting, by simp [hlbuf]⟩
      exact hrun.cons henabled (show s.stored.length < s.read.length + ringSize by omega)
    · rw [htlen, hstored, List.length_cons]
      omega

theorem flush_words (s : DmaManager) {words : List UInt16} (h : words ≠ []) :
    cmdqNext s (.flush words) =
      { s with flushing := true, lbuf := words, flushed := s.flushed ++ words } := if_neg h

def overrunEvents (words : List UInt16) (word : UInt16) : List DmaEvent :=
  [.flush words] ++ List.replicate words.length .store ++ [.publish, .flush [word]]

theorem overrun_run (words : List UInt16) (hlen : words.length = ringSize) (word : UInt16) :
    ∃ t, cmdqMachine.RunWhile StoresBehind freshRing (overrunEvents words word) t ∧
      CmdqEnabled t .store ∧ ¬ StoresBehind t .store := by
  have hne : words ≠ [] := by
    rintro rfl
    cases hlen
  have hsize : 2 * words.length ≤ dmaCmdqSize := by
    rw [hlen]
    decide
  have hflush : cmdqMachine.RunWhile StoresBehind freshRing [.flush words]
      (cmdqNext freshRing (.flush words)) := .single ⟨rfl, hsize⟩ trivial
  rw [flush_words freshRing hne] at hflush
  obtain ⟨t, hstores, -, hwaiting, hflushing, hlbuf, hread, hstored⟩ :=
    store_all (s := { freshRing with flushing := true, lbuf := words, flushed := [] ++ words })
      rfl rfl rfl (by simp [freshRing, hlen])
  have hpublish : cmdqMachine.RunWhile StoresBehind t [.publish] (cmdqNext t .publish) :=
    .single ⟨hflushing, hwaiting, hlbuf⟩ trivial
  have hagain : cmdqMachine.RunWhile StoresBehind (cmdqNext t .publish) [.flush [word]]
      (cmdqNext (cmdqNext t .publish) (.flush [word])) :=
    .single ⟨rfl, by simp [dmaCmdqSize]⟩ trivial
  refine ⟨_, (hflush.append hstores).append (hpublish.append hagain), ?_, ?_⟩
  · exact ⟨rfl, hwaiting, List.cons_ne_nil _ _⟩
  · have hread' : t.read.length = 0 := by rw [hread]; rfl
    have hfull : t.stored.length = ringSize := by
      rw [hstored]
      simpa [freshRing] using hlen
    change ¬ t.stored.length < t.read.length + ringSize
    omega

theorem delivers_overrun : cmdqMachine.start freshRing ∧
    (∃ t, cmdqMachine.Run freshRing (overrunEvents (List.replicate ringSize 0) 1 ++ [.store]) t) ∧
    ¬ cmdqMachine.Throughout Delivers freshRing
      (overrunEvents (List.replicate ringSize 0) 1 ++ [.store]) := by
  obtain ⟨t, hrun, he, hover⟩ :=
    overrun_run (List.replicate ringSize 0) List.length_replicate 1
  have hinv : CmdqInv t :=
    hrun.invariant (fun _ _ h he hok => cmdqInv_next h he hok) (cmdqInv_init freshRing_init)
  have henabled : cmdqMachine.enabled t .store := he
  refine ⟨freshRing_init, ⟨_, hrun.run.snoc henabled trivial⟩, ?_⟩
  intro hthroughout
  have hlast := hthroughout _ (List.prefix_refl _)
  rw [Machine.after_append, ← hrun.after_eq] at hlast
  exact overrun_breaks hinv he hover hlast

end SystemTestSuite.Libglamo
