import SystemTestSuite.Libglamo.CommandRing
import Mathlib.Data.List.Induction

/-!
The command buffer of `libglamo/dma.c` in MMIO mode: groups of register writes that the macros of
`libglamo/dma.h` put into `lbuf` and `dma_mmio_flush` carries out.
-/

namespace SystemTestSuite.Libglamo

open Library

def glamoRegWidth : ℕ := 2

def burstFlag : UInt16 := (1 : UInt16) <<< 15

/-- `lbuf` by words, `llen` in bytes; its size is `dmaCmdqSize`. `regs` records the calls of
`GLAMO_OUT_REG`, the register and the value. -/
structure DmaLocal where
  lbuf : ℕ → UInt16
  llen : ℕ
  regs : List (ℕ × UInt16)

/-- A read of `dma_mmio_flush`, `none` behind the first `llen` bytes. -/
def DmaLocal.word (dma : DmaLocal) (p : ℕ) : Option UInt16 :=
  if glamoRegWidth * (p + 1) ≤ dma.llen then some (dma.lbuf p) else none

def mmioBurst (dma : DmaLocal) : ℕ → ℕ → UInt16 → List (ℕ × UInt16) → Option (List (ℕ × UInt16))
  | 0, _, _, regs => some regs
  | n + 1, p, reg, regs => do
    let val ← dma.word p
    mmioBurst dma n (p + 1) (reg + 2) (regs ++ [(reg.toNat, val)])

def mmioLoop (dma : DmaLocal) (p : ℕ) (regs : List (ℕ × UInt16)) : Option (List (ℕ × UInt16)) :=
  if glamoRegWidth * p < dma.llen then do
    let reg ← dma.word p
    let val ← dma.word (p + 1)
    if reg &&& burstFlag ≠ 0 then
      let n := val.toNat
      let reg := reg &&& ~~~burstFlag
      let regs ← mmioBurst dma n (p + 2) reg regs
      mmioLoop dma (p + 2 + n + (n &&& 1)) regs
    else mmioLoop dma (p + 2) (regs ++ [(reg.toNat, val)])
  else some regs
termination_by dma.llen - glamoRegWidth * p
decreasing_by all_goals simp only [glamoRegWidth] at *; omega

def dmaMmioFlush (dma : DmaLocal) : Option DmaLocal :=
  (mmioLoop dma 0 dma.regs).map fun regs => { dma with llen := 0, regs := regs }

def glamoDmaFlush (dma : DmaLocal) : Option DmaLocal :=
  if dma.llen = 0 then some dma else dmaMmioFlush dma

structure DmaVars where
  dma : DmaLocal
  p : ℕ
  count : ℕ
  total : ℕ

def glamoDmaBegin (dma : DmaLocal) (n : ℕ) : Option DmaVars := do
  let dma ← if dma.llen + n * glamoRegWidth > dmaCmdqSize then glamoDmaFlush dma else some dma
  return ⟨dma, dma.llen / glamoRegWidth, 0, n⟩

/-- `none` is a store behind `lbuf`. -/
def glamoDmaOut (v : DmaVars) (words : UInt16 × UInt16) : Option DmaVars :=
  if glamoRegWidth * (v.p + v.count + 2) ≤ dmaCmdqSize then
    let lbuf := Function.update v.dma.lbuf (v.p + v.count) words.1
    let lbuf := Function.update lbuf (v.p + v.count + 1) words.2
    some { v with dma := { v.dma with lbuf := lbuf }, count := v.count + 2 }
  else none

/-- `none` is the exit when the count is not the one announced. -/
def glamoDmaEnd (v : DmaVars) : Option DmaLocal :=
  if v.count ≠ v.total then none
  else some { v.dma with llen := v.dma.llen + v.count * glamoRegWidth }

/-- `pad` fills a burst of an odd number of values up. -/
inductive DmaCmd
  | out (reg val : UInt16)
  | burst (reg : UInt16) (vals : List UInt16) (pad : UInt16)
  deriving DecidableEq, Repr

def pairUp (pad : UInt16) : List UInt16 → List (UInt16 × UInt16)
  | [] => []
  | [v] => [(v, pad)]
  | v :: w :: vals => (v, w) :: pairUp pad vals

namespace DmaCmd

def reg : DmaCmd → UInt16
  | out reg _ => reg
  | burst reg _ _ => reg

def outs : DmaCmd → List (UInt16 × UInt16)
  | out reg val => [(reg, val)]
  | burst reg vals pad => (burstFlag ||| reg, UInt16.ofNat vals.length) :: pairUp pad vals

end DmaCmd

/-- The commands between `GLAMO_DMA_BEGIN(total)` and `GLAMO_DMA_END`. -/
structure DmaGroup where
  cmds : List DmaCmd
  total : ℕ
  counted : total = 2 * (cmds.flatMap DmaCmd.outs).length
  fits : total * glamoRegWidth ≤ dmaCmdqSize
  small : ∀ cmd ∈ cmds, cmd.reg.toNat < 2 ^ 15

def writeGroup (dma : DmaLocal) (g : DmaGroup) : Option DmaLocal := do
  let v ← glamoDmaBegin dma g.total
  let v ← (g.cmds.flatMap DmaCmd.outs).foldlM glamoDmaOut v
  glamoDmaEnd v

def glamoDmaNew (lbuf : ℕ → UInt16) : DmaLocal := ⟨lbuf, 0, []⟩

inductive DmaCall
  | group (g : DmaGroup)
  | flush

def dmaCall (dma : DmaLocal) : DmaCall → Option DmaLocal
  | .group g => writeGroup dma g
  | .flush => glamoDmaFlush dma

def consecutive (reg : ℕ) : List UInt16 → List (ℕ × UInt16)
  | [] => []
  | v :: vals => (reg, v) :: consecutive (reg + 2) vals

def DmaCmd.denote : DmaCmd → List (ℕ × UInt16)
  | out reg val => [(reg.toNat, val)]
  | burst reg vals _ => consecutive reg.toNat vals

def DmaCall.denote : DmaCall → List (ℕ × UInt16)
  | group g => g.cmds.flatMap DmaCmd.denote
  | flush => []

variable {dma : DmaLocal} {ws pre post vals : List UInt16} {reg pad : UInt16} {p : ℕ}
  {regs : List (ℕ × UInt16)} {cmd : DmaCmd} {cmds : List DmaCmd} {v : DmaVars}

def flatWords (outs : List (UInt16 × UInt16)) : List UInt16 := outs.flatMap fun w => [w.1, w.2]

def DmaCmd.words (cmd : DmaCmd) : List UInt16 := flatWords cmd.outs

structure Holds (dma : DmaLocal) (ws : List UInt16) : Prop where
  llen : dma.llen = glamoRegWidth * ws.length
  lbuf : (List.range ws.length).map dma.lbuf = ws

theorem flatWords_length (outs : List (UInt16 × UInt16)) : (flatWords outs).length = 2 * outs.length := by
  induction outs with
  | nil => rfl
  | cons w outs ih =>
    rw [flatWords] at ih ⊢
    rw [List.flatMap_cons, List.length_append, ih, List.length_cons]
    change 2 + 2 * outs.length = 2 * (outs.length + 1)
    omega

theorem flatWords_pairUp (pad : UInt16) (vals : List UInt16) :
    flatWords (pairUp pad vals) = vals ++ List.replicate (vals.length &&& 1) pad := by
  induction vals using List.twoStepInduction with
  | nil => rfl
  | singleton v =>
    rw [List.length_singleton]
    rfl
  | cons_cons v w vals ih _ =>
    have hparity : (v :: w :: vals).length &&& 1 = vals.length &&& 1 := by
      rw [Nat.and_one_is_mod, Nat.and_one_is_mod, List.length_cons, List.length_cons]
      omega
    rw [hparity, List.cons_append, List.cons_append, ← ih]
    rfl

theorem Holds.word (h : Holds dma ws) (p : ℕ) : dma.word p = ws[p]? := by
  unfold DmaLocal.word
  rw [h.llen]
  by_cases hp : p < ws.length
  · have hin : glamoRegWidth * (p + 1) ≤ glamoRegWidth * ws.length := Nat.mul_le_mul_left _ hp
    have hget : ((List.range ws.length).map dma.lbuf)[p]? = ws[p]? := by rw [h.lbuf]
    rw [if_pos hin, ← hget, List.getElem?_map, List.getElem?_range hp]
    rfl
  · have hout : ¬glamoRegWidth * (p + 1) ≤ glamoRegWidth * ws.length := by
      rw [glamoRegWidth]
      omega
    rw [if_neg hout, List.getElem?_eq_none (Nat.not_lt.mp hp)]

theorem Holds.word_behind (h : Holds dma ws) (hdrop : ws.drop p = post) (k : ℕ) :
    dma.word (p + k) = post[k]? := by
  rw [h.word, ← hdrop, List.getElem?_drop]

theorem Holds.more (h : Holds dma ws) (p : ℕ) : glamoRegWidth * p < dma.llen ↔ ws.drop p ≠ [] := by
  rw [h.llen, Ne, List.drop_eq_nil_iff, glamoRegWidth]
  omega

theorem drop_behind (pre : List UInt16) (hdrop : ws.drop p = pre ++ post) : ws.drop (p + pre.length) = post := by
  rw [← List.drop_drop, hdrop, List.drop_left]

theorem small_reg (h : reg.toNat < 2 ^ 15) : reg &&& burstFlag = 0 := by
  apply UInt16.toNat_inj.mp
  rw [UInt16.toNat_and]
  change reg.toNat &&& 2 ^ 15 = 0
  rw [Nat.and_two_pow, Nat.testBit_lt_two_pow h]
  rfl

theorem flagged_reg (h : reg.toNat < 2 ^ 15) :
    (burstFlag ||| reg) &&& burstFlag ≠ 0 ∧ (burstFlag ||| reg) &&& ~~~burstFlag = reg := by
  have hsum : (burstFlag ||| reg).toNat = 2 ^ 15 + reg.toNat := by
    rw [UInt16.toNat_or]
    exact (Nat.two_pow_add_eq_or_of_lt h 1).symm
  constructor
  · intro hzero
    have hand := congrArg UInt16.toNat hzero
    rw [UInt16.toNat_and, hsum] at hand
    change (2 ^ 15 + reg.toNat) &&& 2 ^ 15 = 0 at hand
    rw [Nat.and_two_pow, Nat.testBit_two_pow_add_eq, Nat.testBit_lt_two_pow h] at hand
    cases hand
  · apply UInt16.toNat_inj.mp
    rw [UInt16.toNat_and, hsum]
    change (2 ^ 15 + reg.toNat) &&& (2 ^ 15 - 1) = reg.toNat
    rw [Nat.and_two_pow_sub_one_eq_mod, Nat.add_mod_left, Nat.mod_eq_of_lt h]

theorem mmioBurst_eq (h : Holds dma ws) (hdrop : ws.drop p = vals ++ post)
    (hreg : reg.toNat + 2 * vals.length < 2 ^ 16) :
    mmioBurst dma vals.length p reg regs = some (regs ++ consecutive reg.toNat vals) := by
  induction vals generalizing p reg regs with
  | nil => exact congrArg some (List.append_nil regs).symm
  | cons v vals ih =>
    have hfirst : dma.word p = some v := h.word_behind hdrop 0
    rw [List.length_cons] at hreg
    have hnext : (reg + 2).toNat = reg.toNat + 2 := by
      rw [UInt16.toNat_add]
      exact Nat.mod_eq_of_lt (by simp; omega)
    have hrest : ws.drop (p + 1) = vals ++ post := drop_behind [v] hdrop
    rw [List.length_cons, mmioBurst, hfirst, Option.bind_eq_bind, Option.bind_some,
      ih hrest (by omega), hnext, List.append_assoc]
    rfl

def DmaCmd.Sound (cmd : DmaCmd) : Prop := cmd.reg.toNat < 2 ^ 15 ∧ cmd.words.length < 2 ^ 14

theorem mmioLoop_out (h : Holds dma ws) {reg val : UInt16} (hreg : reg.toNat < 2 ^ 15)
    (hdrop : ws.drop p = reg :: val :: post) :
    mmioLoop dma p regs = mmioLoop dma (p + 2) (regs ++ [(reg.toNat, val)]) := by
  have hmore := (h.more p).mpr (hdrop ▸ List.cons_ne_nil _ _)
  have hfirst : dma.word p = some reg := h.word_behind hdrop 0
  have hsecond : dma.word (p + 1) = some val := h.word_behind hdrop 1
  rw [mmioLoop, if_pos hmore, hfirst, hsecond, Option.bind_eq_bind, Option.bind_some, Option.bind_eq_bind,
    Option.bind_some, if_neg (not_not_intro (small_reg hreg))]

theorem mmioLoop_burst (h : Holds dma ws) (hreg : reg.toNat < 2 ^ 15) (hvals : vals.length < 2 ^ 14)
    (hdrop : ws.drop p = (burstFlag ||| reg) :: UInt16.ofNat vals.length :: (vals ++ post)) :
    mmioLoop dma p regs =
      mmioLoop dma (p + 2 + vals.length + (vals.length &&& 1)) (regs ++ consecutive reg.toNat vals) := by
  have hmore := (h.more p).mpr (hdrop ▸ List.cons_ne_nil _ _)
  have hfirst : dma.word p = some (burstFlag ||| reg) := h.word_behind hdrop 0
  have hsecond : dma.word (p + 1) = some (UInt16.ofNat vals.length) := h.word_behind hdrop 1
  have hcount : (UInt16.ofNat vals.length).toNat = vals.length := by
    rw [UInt16.toNat_ofNat', Nat.mod_eq_of_lt (by omega)]
  have hrest : ws.drop (p + 2) = vals ++ post :=
    drop_behind [burstFlag ||| reg, UInt16.ofNat vals.length] hdrop
  obtain ⟨hflag, hclear⟩ := flagged_reg hreg
  rw [mmioLoop, if_pos hmore, hfirst, hsecond, Option.bind_eq_bind, Option.bind_some, Option.bind_eq_bind,
    Option.bind_some, if_pos hflag, hcount, hclear]
  dsimp only
  rw [mmioBurst_eq h hrest (by omega), Option.bind_some]

theorem mmioLoop_cmd (h : Holds dma ws) (hcmd : cmd.Sound) (hdrop : ws.drop p = cmd.words ++ post) :
    mmioLoop dma p regs = mmioLoop dma (p + cmd.words.length) (regs ++ cmd.denote) := by
  obtain ⟨hreg, hlen⟩ := hcmd
  cases cmd with
  | out reg val => exact mmioLoop_out h hreg hdrop
  | burst reg vals pad =>
    have hwords : DmaCmd.words (.burst reg vals pad) = (burstFlag ||| reg) :: UInt16.ofNat vals.length ::
        (vals ++ List.replicate (vals.length &&& 1) pad) := by
      rw [← flatWords_pairUp]
      rfl
    have hcount : (DmaCmd.words (.burst reg vals pad)).length =
        2 + vals.length + (vals.length &&& 1) := by
      rw [hwords, List.length_cons, List.length_cons, List.length_append, List.length_replicate]
      omega
    rw [hwords, List.cons_append, List.cons_append, List.append_assoc] at hdrop
    have hnext : p + (2 + vals.length + (vals.length &&& 1)) =
        p + 2 + vals.length + (vals.length &&& 1) := by omega
    rw [hcount, hnext, mmioLoop_burst h hreg (by omega) hdrop]
    rfl

theorem mmioLoop_cmds (h : Holds dma ws) (hcmds : ∀ cmd ∈ cmds, cmd.Sound)
    (hdrop : ws.drop p = cmds.flatMap DmaCmd.words) :
    mmioLoop dma p regs = some (regs ++ cmds.flatMap DmaCmd.denote) := by
  induction cmds generalizing p regs with
  | nil =>
    have hend : ¬glamoRegWidth * p < dma.llen := fun hmore => (h.more p).mp hmore hdrop
    rw [mmioLoop, if_neg hend, List.flatMap_nil, List.append_nil]
  | cons cmd cmds ih =>
    rw [List.flatMap_cons] at hdrop
    rw [mmioLoop_cmd h (hcmds cmd List.mem_cons_self) hdrop,
      ih (fun c hc => hcmds c (List.mem_cons_of_mem cmd hc)) (drop_behind _ hdrop), List.append_assoc,
      List.flatMap_cons]

structure Pending (dma : DmaLocal) (cmds : List DmaCmd) (done : List (ℕ × UInt16)) : Prop where
  holds : Holds dma (cmds.flatMap DmaCmd.words)
  sound : ∀ cmd ∈ cmds, cmd.Sound
  size : dma.llen ≤ dmaCmdqSize
  done : dma.regs ++ cmds.flatMap DmaCmd.denote = done

theorem Pending.flush {done : List (ℕ × UInt16)} (h : Pending dma cmds done) :
    glamoDmaFlush dma = some { dma with llen := 0, regs := done } := by
  have hloop : mmioLoop dma 0 dma.regs = some done := by
    rw [mmioLoop_cmds h.holds h.sound rfl, h.done]
  unfold glamoDmaFlush
  split_ifs with hempty
  · have hend : ¬glamoRegWidth * 0 < dma.llen := by omega
    rw [mmioLoop, if_neg hend] at hloop
    rw [← Option.some.inj hloop, ← hempty]
  · rw [dmaMmioFlush, hloop]
    rfl

structure Writes (v : DmaVars) (ws : List UInt16) : Prop where
  count : v.p + v.count = ws.length
  lbuf : (List.range ws.length).map v.dma.lbuf = ws

theorem Writes.out (h : Writes v ws) (w : UInt16 × UInt16)
    (hroom : glamoRegWidth * (ws.length + 2) ≤ dmaCmdqSize) :
    ∃ v', glamoDmaOut v w = some v' ∧ Writes v' (ws ++ [w.1, w.2]) ∧ v'.count = v.count + 2 ∧
      v'.total = v.total ∧ v'.dma.llen = v.dma.llen ∧ v'.dma.regs = v.dma.regs := by
  rw [glamoDmaOut, h.count, if_pos hroom]
  refine ⟨_, rfl, ⟨?_, ?_⟩, rfl, rfl, rfl, rfl⟩
  · rw [List.length_append, ← h.count]
    rfl
  · dsimp only
    have hsame : ∀ i ∈ List.range ws.length, Function.update (Function.update v.dma.lbuf ws.length w.1)
        (ws.length + 1) w.2 i = v.dma.lbuf i := by
      intro i hi
      rw [List.mem_range] at hi
      rw [Function.update_of_ne (by omega), Function.update_of_ne (by omega)]
    rw [List.length_append]
    change (List.range (ws.length + 1 + 1)).map _ = _
    rw [List.range_succ, List.range_succ, List.map_append, List.map_append, List.map_singleton,
      List.map_singleton, Function.update_self, Function.update_of_ne (by omega), Function.update_self,
      List.map_congr_left hsame, h.lbuf, List.append_assoc]
    rfl

theorem Writes.outs (h : Writes v ws) (outs : List (UInt16 × UInt16))
    (hroom : glamoRegWidth * (ws.length + 2 * outs.length) ≤ dmaCmdqSize) :
    ∃ v', outs.foldlM glamoDmaOut v = some v' ∧ Writes v' (ws ++ flatWords outs) ∧
      v'.count = v.count + 2 * outs.length ∧ v'.total = v.total ∧ v'.dma.llen = v.dma.llen ∧
      v'.dma.regs = v.dma.regs := by
  induction outs generalizing v ws with
  | nil => exact ⟨v, rfl, by rwa [flatWords, List.flatMap_nil, List.append_nil], rfl, rfl, rfl, rfl⟩
  | cons w outs ih =>
    rw [List.length_cons] at hroom
    have hfits : glamoRegWidth * (ws.length + 2) ≤ dmaCmdqSize :=
      (Nat.mul_le_mul_left _ (by omega)).trans hroom
    obtain ⟨v₁, hout, hwrites, hcount, htotal, hllen, hregs⟩ := h.out w hfits
    have hlen : (ws ++ [w.1, w.2]).length = ws.length + 2 := List.length_append
    obtain ⟨v₂, houts, hwrites₂, hcount₂, htotal₂, hllen₂, hregs₂⟩ := ih hwrites (by
      rw [hlen]
      exact (Nat.mul_le_mul_left _ (by omega)).trans hroom)
    refine ⟨v₂, ?_, ?_, ?_, htotal₂.trans htotal, hllen₂.trans hllen, hregs₂.trans hregs⟩
    · rw [List.foldlM_cons, hout, Option.bind_eq_bind, Option.bind_some, houts]
    · rw [List.append_assoc] at hwrites₂
      exact hwrites₂
    · rw [hcount₂, hcount, List.length_cons]
      omega

theorem DmaGroup.words_eq (g : DmaGroup) :
    flatWords (g.cmds.flatMap DmaCmd.outs) = g.cmds.flatMap DmaCmd.words := List.flatMap_assoc

theorem DmaGroup.words_length (g : DmaGroup) : (g.cmds.flatMap DmaCmd.words).length = g.total := by
  rw [← g.words_eq, flatWords_length, g.counted]

theorem DmaGroup.sound (g : DmaGroup) : ∀ cmd ∈ g.cmds, cmd.Sound := by
  intro cmd hcmd
  refine ⟨g.small cmd hcmd, ?_⟩
  have hle : cmd.words.length ≤ (g.cmds.flatMap DmaCmd.words).length :=
    (List.sublist_flatten_of_mem (List.mem_map_of_mem hcmd)).length_le
  have hfits := g.fits
  rw [g.words_length] at hle
  rw [glamoRegWidth, dmaCmdqSize] at hfits
  omega

section Group

variable {done : List (ℕ × UInt16)}

theorem Pending.begin (h : Pending dma cmds done) {n : ℕ} (hn : n * glamoRegWidth ≤ dmaCmdqSize) :
    ∃ v cmds', glamoDmaBegin dma n = some v ∧ Pending v.dma cmds' done ∧
      v.dma.llen + n * glamoRegWidth ≤ dmaCmdqSize ∧ v.p = v.dma.llen / glamoRegWidth ∧ v.count = 0 ∧
        v.total = n := by
  unfold glamoDmaBegin
  split_ifs with hfull
  · rw [h.flush]
    refine ⟨_, [], rfl, ⟨⟨rfl, rfl⟩, List.forall_mem_nil _, Nat.zero_le _, List.append_nil done⟩, ?_, rfl, rfl,
      rfl⟩
    exact (Nat.zero_add _).trans_le hn
  · exact ⟨_, cmds, rfl, h, Nat.not_lt.mp hfull, rfl, rfl, rfl⟩

theorem Pending.group (h : Pending dma cmds done) (g : DmaGroup) :
    ∃ dma' cmds', writeGroup dma g = some dma' ∧
      Pending dma' cmds' (done ++ g.cmds.flatMap DmaCmd.denote) := by
  obtain ⟨v, cmds₁, hbegin, hpending, hroom, hp, hcount, htotal⟩ := h.begin g.fits
  have hllen := hpending.holds.llen
  have hwrites : Writes v (cmds₁.flatMap DmaCmd.words) := by
    refine ⟨?_, hpending.holds.lbuf⟩
    rw [hp, hcount, hllen, Nat.mul_div_cancel_left _ (by decide), Nat.add_zero]
  have hcounted := g.counted
  obtain ⟨v', houts, hwrites', hcount', htotal', hllen', hregs'⟩ :=
    hwrites.outs (g.cmds.flatMap DmaCmd.outs) (by
      rw [hllen, Nat.mul_comm g.total, ← Nat.mul_add, hcounted] at hroom
      exact hroom)
  have hwords := g.words_eq
  rw [hwords] at hwrites'
  have hcounts : v'.count = g.total := by
    rw [hcount', hcount, Nat.zero_add, hcounted]
  have hend : glamoDmaEnd v' = some { v'.dma with llen := v'.dma.llen + v'.count * glamoRegWidth } :=
    if_neg (not_not_intro (by rw [hcounts, htotal', htotal]))
  have hrun : writeGroup dma g = some { v'.dma with llen := v'.dma.llen + v'.count * glamoRegWidth } := by
    rw [writeGroup, hbegin, Option.bind_eq_bind, Option.bind_some, houts, Option.bind_some, hend]
  rw [hllen', hcounts] at hrun
  refine ⟨_, cmds₁ ++ g.cmds, hrun, ?_⟩
  constructor
  · rw [List.flatMap_append]
    refine ⟨?_, hwrites'.lbuf⟩
    rw [List.length_append, g.words_length, hllen, Nat.mul_add, Nat.mul_comm g.total]
  · exact List.forall_mem_append.mpr ⟨hpending.sound, g.sound⟩
  · exact hroom
  · rw [← hpending.done, List.flatMap_append, List.append_assoc, hregs']

end Group

theorem Pending.call {done : List (ℕ × UInt16)} (h : Pending dma cmds done) (call : DmaCall) :
    ∃ dma' cmds', dmaCall dma call = some dma' ∧ Pending dma' cmds' (done ++ call.denote) := by
  cases call with
  | group g => exact h.group g
  | flush =>
    exact ⟨_, [], h.flush, ⟨rfl, rfl⟩, List.forall_mem_nil _, Nat.zero_le _, rfl⟩

theorem Pending.calls {done : List (ℕ × UInt16)} (h : Pending dma cmds done) (calls : List DmaCall) :
    ∃ dma' cmds', calls.foldlM dmaCall dma = some dma' ∧
      Pending dma' cmds' (done ++ calls.flatMap DmaCall.denote) := by
  induction calls generalizing dma cmds done with
  | nil => exact ⟨dma, cmds, rfl, by rwa [List.flatMap_nil, List.append_nil]⟩
  | cons call calls ih =>
    obtain ⟨dma₁, cmds₁, hcall, hpending⟩ := h.call call
    obtain ⟨dma₂, cmds₂, hcalls, hpending₂⟩ := ih hpending
    refine ⟨dma₂, cmds₂, ?_, ?_⟩
    · rw [List.foldlM_cons, hcall, Option.bind_eq_bind, Option.bind_some, hcalls]
    · rwa [List.flatMap_cons, ← List.append_assoc]

theorem mmioFlush_performs (lbuf : ℕ → UInt16) (calls : List DmaCall) :
    ∃ dma, calls.foldlM dmaCall (glamoDmaNew lbuf) = some dma ∧ dma.llen ≤ dmaCmdqSize ∧
      ∃ dma', glamoDmaFlush dma = some dma' ∧ dma'.regs = calls.flatMap DmaCall.denote ∧ dma'.llen = 0 := by
  have hnew : Pending (glamoDmaNew lbuf) [] [] := ⟨⟨rfl, rfl⟩, List.forall_mem_nil _, Nat.zero_le _, rfl⟩
  obtain ⟨dma, cmds, hrun, hpending⟩ := hnew.calls calls
  exact ⟨dma, hrun, hpending.size, _, hpending.flush, rfl, rfl⟩

end SystemTestSuite.Libglamo
