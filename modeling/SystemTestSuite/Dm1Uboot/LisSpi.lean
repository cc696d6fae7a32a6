import SystemTestSuite.Library.MsbWords

/-!
The words that `dm1_test/cmd_sensor.c` shifts out to the motion sensors and in from them, bit by bit over
three pins of port G.
-/

namespace SystemTestSuite.Dm1Uboot

open Library

def gta02Sclk : UInt32 := (1 : UInt32) <<< 7
def gta02Mosi : UInt32 := (1 : UInt32) <<< 6

def drivePin (pin : UInt32) (bit : Bool) (dat : UInt32) : UInt32 :=
  if bit then dat ||| pin else dat &&& ~~~pin

/-- `presented` records the level of the data line at each rising edge of the clock, `sampled` what
`SPI_READ` gave. -/
structure SpiLine where
  gpgdat : UInt32
  presented : List Bool
  sampled : List Bool

def SpiLine.start (gpgdat : UInt32) : SpiLine := ⟨gpgdat, [], []⟩

namespace SpiLine

def scl (bit : Bool) (s : SpiLine) : SpiLine :=
  let gpgdat := drivePin gta02Sclk bit s.gpgdat
  let rising := s.gpgdat &&& gta02Sclk = 0 ∧ gpgdat &&& gta02Sclk ≠ 0
  { s with
    gpgdat := gpgdat
    presented := if rising then s.presented ++ [decide (gpgdat &&& gta02Mosi ≠ 0)] else s.presented }

def sda (bit : Bool) (s : SpiLine) : SpiLine :=
  { s with gpgdat := drivePin gta02Mosi bit s.gpgdat }

/-- `miso` has the level of the other data line at each `SPI_READ`. -/
def read (miso : ℕ → Bool) (s : SpiLine) : Bool × SpiLine :=
  let bit := miso s.sampled.length
  (bit, { s with sampled := s.sampled ++ [bit] })

end SpiLine

def sndBits (bitlen : ℕ) : ℕ → UInt16 → SpiLine → SpiLine
  | 0, _, s => s
  | n + 1, tmpout, s =>
    let s := s.scl false
    let s := s.sda (decide (tmpout.toNat &&& (1 <<< (bitlen - 1)) ≠ 0))
    let s := s.scl true
    sndBits bitlen n (tmpout <<< 1) s

def lisSpiSnd (wordnum bitlen : ℕ) (dout : ℕ → UInt16) (s : SpiLine) : SpiLine :=
  (List.range wordnum).foldl (fun s i => sndBits bitlen bitlen (dout i) s) s

def revBit (bitlen : ℕ) (miso : ℕ → Bool) (r : UInt16 × SpiLine) (j : ℕ) : UInt16 × SpiLine :=
  let s := r.2.scl false
  let (bit, s) := s.read miso
  let tmpin := if bit then r.1 ||| 0x1 else r.1 &&& ~~~0x01
  let s := s.scl true
  (if j ≠ bitlen - 1 then tmpin <<< 1 else tmpin, s)

/-- `din` with `tmpnum`, the index of the word stored last. -/
structure RevWords where
  din : ℕ → UInt16
  tmpnum : ℕ
  line : SpiLine

def revWord (bitlen : ℕ) (miso : ℕ → Bool) (r : RevWords) : RevWords :=
  let (tmpin, s) := (List.range bitlen).foldl (revBit bitlen miso) (0x0, r.line)
  { din := Function.update r.din (r.tmpnum - 1) tmpin
    tmpnum := r.tmpnum - 1
    line := s }

def lisSpiRev (wordnum bitlen : ℕ) (miso : ℕ → Bool) (din : ℕ → UInt16) (s : SpiLine) : RevWords :=
  (List.range wordnum).foldl (fun r _ => revWord bitlen miso r) ⟨din, wordnum, s⟩

variable {bitlen n wordnum : ℕ} {miso : ℕ → Bool} {dout din : ℕ → UInt16} {r : RevWords}

theorem drivePin_same (pin dat : UInt32) (bit : Bool) :
    drivePin pin bit dat &&& pin = if bit then pin else 0 := by
  cases bit with
  | false =>
    change dat &&& ~~~pin &&& pin = 0
    rw [UInt32.and_assoc, UInt32.not_and_self, UInt32.and_zero]
  | true =>
    change (dat ||| pin) &&& pin = pin
    apply UInt32.toBitVec_inj.mp
    ext i hi
    simpa using Or.inr

theorem drivePin_other {pin other : UInt32} (h : pin &&& other = 0) (dat : UInt32) (bit : Bool) :
    drivePin pin bit dat &&& other = dat &&& other := by
  apply UInt32.toBitVec_inj.mp
  ext i hi
  have hbit : (pin.toBitVec[i] && other.toBitVec[i]) = false := by
    have hget := congrArg (fun w => w.toBitVec.getLsbD i) h
    simpa [hi] using hget
  cases bit with
  | false =>
    change ((dat &&& ~~~pin) &&& other).toBitVec[i] = (dat &&& other).toBitVec[i]
    simp only [UInt32.toBitVec_and, UInt32.toBitVec_not, BitVec.getElem_and, BitVec.getElem_not]
    cases hpin : pin.toBitVec[i] with
    | false => simp
    | true =>
      rw [hpin, Bool.true_and] at hbit
      simp [hbit]
  | true =>
    change ((dat ||| pin) &&& other).toBitVec[i] = (dat &&& other).toBitVec[i]
    simp only [UInt32.toBitVec_and, UInt32.toBitVec_or, BitVec.getElem_and, BitVec.getElem_or]
    cases hpin : pin.toBitVec[i] with
    | false => simp
    | true =>
      rw [hpin, Bool.true_and] at hbit
      simp [hbit]

theorem clock_pulse (s : SpiLine) (bit : Bool) :
    (((s.scl false).sda bit).scl true).presented = s.presented ++ [bit] := by
  have hlow : (s.scl false).presented = s.presented := by
    simp only [SpiLine.scl, drivePin_same]
    simp
  have hclock : ((s.scl false).sda bit).gpgdat &&& gta02Sclk = 0 := by
    simp only [SpiLine.sda, SpiLine.scl]
    rw [drivePin_other (by decide), drivePin_same]
    rfl
  have hdata : drivePin gta02Sclk true ((s.scl false).sda bit).gpgdat &&& gta02Mosi =
      if bit then gta02Mosi else 0 := by
    rw [drivePin_other (by decide)]
    exact drivePin_same _ _ _
  have hrising : drivePin gta02Sclk true ((s.scl false).sda bit).gpgdat &&& gta02Sclk ≠ 0 := by
    rw [drivePin_same]
    decide
  have hlevel : decide ((if bit then gta02Mosi else 0) ≠ 0) = bit := by
    cases bit <;> rfl
  rw [SpiLine.scl]
  dsimp only
  rw [if_pos ⟨hclock, hrising⟩, hdata, hlevel]
  exact congrArg (· ++ [bit]) hlow

theorem presented_bit (tmpout : UInt16) (k : ℕ) :
    decide (tmpout.toNat &&& (1 <<< k) ≠ 0) = tmpout.toNat.testBit k := by
  rw [Nat.one_shiftLeft, Nat.and_two_pow]
  cases tmpout.toNat.testBit k <;> simp

theorem shifted_bit (tmpout : UInt16) {k : ℕ} (hk : k + 1 < 16) :
    (tmpout <<< 1).toNat.testBit (k + 1) = tmpout.toNat.testBit k := by
  rw [UInt16.toNat_shiftLeft, Nat.testBit_mod_two_pow, Nat.testBit_shiftLeft]
  simp [hk]

theorem sndBits_presented (hbitlen : bitlen ≤ 16) (hn : n ≤ bitlen) (tmpout : UInt16) (s : SpiLine) :
    (sndBits bitlen n tmpout s).presented =
      s.presented ++ (List.range n).map fun j => tmpout.toNat.testBit (bitlen - 1 - j) := by
  induction n generalizing tmpout s with
  | zero => exact (List.append_nil _).symm
  | succ n ih =>
    have hrest : ∀ j ∈ List.range n, (tmpout <<< 1).toNat.testBit (bitlen - 1 - j) =
        tmpout.toNat.testBit (bitlen - 1 - (j + 1)) := by
      intro j hj
      rw [List.mem_range] at hj
      have hbit : bitlen - 1 - j = bitlen - 1 - (j + 1) + 1 := by omega
      rw [hbit]
      exact shifted_bit tmpout (by omega)
    rw [sndBits, ih (by omega), clock_pulse, presented_bit, List.map_congr_left hrest,
      List.range_succ_eq_map, List.map_cons, List.map_map, List.append_assoc]
    rfl

theorem lisSpiSnd_presented (hbitlen : bitlen ≤ 16) (wordnum : ℕ) (dout : ℕ → UInt16) (s : SpiLine) :
    (lisSpiSnd wordnum bitlen dout s).presented =
      s.presented ++ (List.range wordnum).flatMap fun i => msbBits bitlen (dout i).toNat := by
  induction wordnum with
  | zero => exact (List.append_nil _).symm
  | succ wordnum ih =>
    rw [lisSpiSnd] at ih ⊢
    rw [List.range_succ, List.foldl_append, List.foldl_cons, List.foldl_nil,
      sndBits_presented hbitlen le_rfl, ih, List.flatMap_append, List.flatMap_singleton,
      List.append_assoc]
    rfl

theorem setLow_value {tmpin : UInt16} {v : ℕ} (h : tmpin.toNat = 2 * v) (bit : Bool) :
    (if bit then tmpin ||| 0x1 else tmpin &&& ~~~0x01).toNat = 2 * v + bit.toNat := by
  cases bit with
  | true =>
    change (tmpin ||| 1).toNat = 2 * v + 1
    rw [UInt16.toNat_or, h]
    exact (Nat.two_pow_add_eq_or_of_lt (i := 1) Nat.one_lt_two v).symm
  | false =>
    have hsmall := tmpin.toNat_lt
    have heven : tmpin.toNat = v <<< 1 := by
      rw [h, Nat.shiftLeft_eq]
      omega
    have hmask : (~~~(0x01 : UInt16)).toNat = (2 ^ 15 - 1) <<< 1 := rfl
    change (tmpin &&& ~~~0x01).toNat = 2 * v
    rw [UInt16.toNat_and, hmask, heven, ← Nat.shiftLeft_and_distrib, Nat.and_two_pow_sub_one_eq_mod,
      Nat.mod_eq_of_lt (by omega), ← heven, h]

theorem revBit_sampled (r : UInt16 × SpiLine) (j : ℕ) :
    (revBit bitlen miso r j).2.sampled = r.2.sampled ++ [miso r.2.sampled.length] := rfl

theorem revBit_value {r : UInt16 × SpiLine} {v : ℕ} (h : r.1.toNat = 2 * v) {j : ℕ}
    (hsmall : j ≠ bitlen - 1 → v < 2 ^ 14) :
    (revBit bitlen miso r j).1.toNat =
      (if j = bitlen - 1 then 1 else 2) * (2 * v + (miso r.2.sampled.length).toNat) := by
  have hset := setLow_value h (miso r.2.sampled.length)
  have hbit := Bool.toNat_lt (miso r.2.sampled.length)
  change (if j ≠ bitlen - 1 then (if miso r.2.sampled.length then r.1 ||| 0x1 else r.1 &&& ~~~0x01) <<< 1
    else if miso r.2.sampled.length then r.1 ||| 0x1 else r.1 &&& ~~~0x01).toNat = _
  by_cases hlast : j = bitlen - 1
  · rw [if_neg (not_not_intro hlast), if_pos hlast, hset, Nat.one_mul]
  · have hv := hsmall hlast
    have hfits : (2 * v + (miso r.2.sampled.length).toNat) * 2 < 2 ^ 16 := by omega
    rw [if_pos hlast, if_neg hlast, UInt16.toNat_shiftLeft, hset]
    change (2 * v + (miso r.2.sampled.length).toNat) <<< 1 % 2 ^ 16 = _
    rw [Nat.shiftLeft_eq, Nat.pow_one, Nat.mod_eq_of_lt hfits, Nat.mul_comm]

/-- The bits that `SPI_READ` gives for one word, from the `k`-th read on. -/
def wordBits (bitlen : ℕ) (miso : ℕ → Bool) (k : ℕ) : List Bool :=
  (List.range bitlen).map fun j => miso (k + j)

@[simp] theorem wordBits_length (bitlen : ℕ) (miso : ℕ → Bool) (k : ℕ) :
    (wordBits bitlen miso k).length = bitlen := by
  rw [wordBits, List.length_map, List.length_range]

theorem wordBits_succ (bitlen : ℕ) (miso : ℕ → Bool) (k : ℕ) :
    wordBits (bitlen + 1) miso k = wordBits bitlen miso k ++ [miso (k + bitlen)] := by
  rw [wordBits, List.range_succ, List.map_append, List.map_singleton]
  rfl

theorem revBits_value (hbitlen : bitlen ≤ 16) (miso : ℕ → Bool) (s : SpiLine) {j : ℕ} (hj : j ≤ bitlen) :
    ((List.range j).foldl (revBit bitlen miso) (0x0, s)).2.sampled =
        s.sampled ++ wordBits j miso s.sampled.length ∧
      ((List.range j).foldl (revBit bitlen miso) (0x0, s)).1.toNat =
        (if j = bitlen then 1 else 2) * msbValue (wordBits j miso s.sampled.length) := by
  induction j with
  | zero => exact ⟨(List.append_nil _).symm, (Nat.mul_zero _).symm⟩
  | succ j ih =>
    obtain ⟨hsampled, hvalue⟩ := ih (by omega)
    rw [if_neg (by omega)] at hvalue
    rw [List.range_succ, List.foldl_append, List.foldl_cons, List.foldl_nil]
    generalize (List.range j).foldl (revBit bitlen miso) (0x0, s) = r at hsampled hvalue
    have hread : r.2.sampled.length = s.sampled.length + j := by
      rw [hsampled, List.length_append, wordBits_length]
    have hlt := msbValue_lt (wordBits j miso s.sampled.length)
    rw [wordBits_length] at hlt
    have hsmall : j ≠ bitlen - 1 → msbValue (wordBits j miso s.sampled.length) < 2 ^ 14 := by
      intro hmore
      exact hlt.trans_le (Nat.pow_le_pow_right (by decide) (by omega))
    have hend : j = bitlen - 1 ↔ j + 1 = bitlen := by omega
    constructor
    · rw [revBit_sampled, hsampled, wordBits_succ, List.append_assoc, ← hsampled, hread]
    · rw [revBit_value hvalue hsmall, hread, wordBits_succ, msbValue_concat]
      simp only [hend]

theorem revWord_line (hbitlen : bitlen ≤ 16) (r : RevWords) :
    (revWord bitlen miso r).line.sampled =
      r.line.sampled ++ wordBits bitlen miso r.line.sampled.length :=
  (revBits_value hbitlen miso r.line le_rfl).1

theorem revWord_din (hbitlen : bitlen ≤ 16) (r : RevWords) (k : ℕ) :
    ((revWord bitlen miso r).din k).toNat =
      if k = r.tmpnum - 1 then msbValue (wordBits bitlen miso r.line.sampled.length)
      else (r.din k).toNat := by
  have hvalue := (revBits_value hbitlen miso r.line le_rfl).2
  rw [if_pos rfl, Nat.one_mul] at hvalue
  rw [← hvalue]
  by_cases hk : k = r.tmpnum - 1
  · rw [if_pos hk, hk]
    exact congrArg UInt16.toNat (Function.update_self _ _ _)
  · rw [if_neg hk]
    exact congrArg UInt16.toNat (Function.update_of_ne hk _ _)

structure Received (wordnum bitlen : ℕ) (miso : ℕ → Bool) (din : ℕ → UInt16) (i : ℕ) (r : RevWords) :
    Prop where
  tmpnum : r.tmpnum = wordnum - i
  sampled : r.line.sampled = (List.range i).flatMap fun k => wordBits bitlen miso (k * bitlen)
  words : ∀ k < i, (r.din (wordnum - 1 - k)).toNat = msbValue (wordBits bitlen miso (k * bitlen))
  behind : ∀ k, wordnum ≤ k → r.din k = din k

theorem Received.length (h : Received wordnum bitlen miso din n r) : r.line.sampled.length = n * bitlen := by
  rw [h.sampled, List.length_flatMap]
  simp [List.map_const']

theorem Received.next (hbitlen : bitlen ≤ 16) (hn : n < wordnum)
    (h : Received wordnum bitlen miso din n r) :
    Received wordnum bitlen miso din (n + 1) (revWord bitlen miso r) := by
  have htmpnum := h.tmpnum
  constructor
  · change r.tmpnum - 1 = wordnum - (n + 1)
    omega
  · rw [revWord_line hbitlen, h.length, h.sampled, List.range_succ, List.flatMap_append,
      List.flatMap_singleton]
  · intro k hk
    rw [revWord_din hbitlen, h.length]
    by_cases hlast : k = n
    · rw [if_pos (by omega), hlast]
    · rw [if_neg (by omega)]
      exact h.words k (by omega)
  · intro k hk
    rw [← h.behind k hk]
    exact Function.update_of_ne (by omega) _ _

theorem lisSpiRev_received (hbitlen : bitlen ≤ 16) (miso : ℕ → Bool) (din : ℕ → UInt16) (dat : UInt32)
    (wordnum : ℕ) :
    Received wordnum bitlen miso din wordnum (lisSpiRev wordnum bitlen miso din (.start dat)) := by
  have hturns : ∀ n ≤ wordnum, Received wordnum bitlen miso din n
      ((List.range n).foldl (fun r _ => revWord bitlen miso r) ⟨din, wordnum, .start dat⟩) := by
    intro n hn
    induction n with
    | zero => exact ⟨rfl, rfl, fun k hk => absurd hk (Nat.not_lt_zero k), fun _ _ => rfl⟩
    | succ n ih =>
      rw [List.range_succ, List.foldl_append]
      exact (ih (by omega)).next hbitlen (by omega)
  exact hturns wordnum le_rfl

theorem lisSpiRev_inverts (hbitlen : bitlen ≤ 16) (wordnum : ℕ)
    (dout din : ℕ → UInt16) (miso : ℕ → Bool) (sndDat revDat : UInt32)
    (hsame : (lisSpiRev wordnum bitlen miso din (.start revDat)).line.sampled =
      (lisSpiSnd wordnum bitlen dout (.start sndDat)).presented) :
    (∀ i < wordnum, ((lisSpiRev wordnum bitlen miso din (.start revDat)).din (wordnum - 1 - i)).toNat =
        (dout i).toNat % 2 ^ bitlen) ∧
      ∀ k, wordnum ≤ k → (lisSpiRev wordnum bitlen miso din (.start revDat)).din k = din k := by
  have hreceived := lisSpiRev_received hbitlen miso din revDat wordnum
  rw [hreceived.sampled, lisSpiSnd_presented hbitlen] at hsame
  refine ⟨?_, hreceived.behind⟩
  intro i hi
  have hword := flatMap_words (fun k => wordBits_length bitlen miso (k * bitlen))
    (fun k => msbBits_length bitlen (dout k).toNat) hsame i hi
  rw [hreceived.words i hi, hword, msbValue_msbBits]

def sentSample : ℕ → UInt16 := fun i => if i = 0 then 0x3b else 0x1a5

def misoSample (k : ℕ) : Bool := ((lisSpiSnd 2 8 sentSample (.start 0)).presented[k]?).getD false

theorem lisSpiRev_inverts_sample :
    (∀ i < 2, ((lisSpiRev 2 8 misoSample (fun _ => 0) (.start 0)).din (2 - 1 - i)).toNat =
        (sentSample i).toNat % 2 ^ 8) ∧
      ∀ k, 2 ≤ k → (lisSpiRev 2 8 misoSample (fun _ => 0) (.start 0)).din k = 0 :=
  lisSpiRev_inverts (by decide) 2 sentSample (fun _ => 0) misoSample 0 0 (by decide)

end SystemTestSuite.Dm1Uboot
