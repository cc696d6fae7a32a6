import SystemTestSuite.GsmDaemon.SmsRead
import SystemTestSuite.GsmDaemon.SmsUnsolicited
import SystemTestSuite.Library.SeptetText

/-!
The text of a cell broadcast page, `libgsmd/libgsmd_sms.c`, and the `payload` of `util/event.c` that gets it.
`char` is unsigned, as on the ARM target.
-/

namespace SystemTestSuite.Libgsmd

open Library GsmDaemon

abbrev CbmPage := { data : Bytes // data.length = 82 }

def cbmUnpackedAt (src : Bytes) (i : ℕ) : Option UInt8 := do
  let high ← src[(i * 7 + 7) >>> 3]?
  let low ← src[(i * 7) >>> 3]?
  return septetOf high low i

/-- The loop at `i`, with its number of turns left up to 93; `dest` is what has been written. -/
def cbmUnpackingLoop (src : Bytes) : ℕ → ℕ → UInt8 → Bytes → Option (Bytes × ℕ)
  | 0, i, _, dest => some (dest, i)
  | turns + 1, i, ch, dest =>
    if ch = 0 then some (dest, i)
    else do
      let ch ← cbmUnpackedAt src i
      cbmUnpackingLoop src turns (i + 1) ch (dest ++ [ch])

/-- What is written to `dest`, and the return value; `none` is a read outside `src`. -/
def cbmUnpacking7bitCharacter (src : Bytes) : Option (Bytes × ℕ) := do
  let (dest, i) ← cbmUnpackingLoop src 93 0 1 []
  return (dest ++ [0], i)

def payloadSize : ℕ := 95

/-- What `incbm_handler` has in `payload`, nothing for the other alphabets; `none` is an access outside
`data` or `payload`. -/
def incbmPayload (msg : GsmdCbm) : Option (Option Bytes) :=
  if msg.codingScheme = alphabetDefault then do
    let (payload, _) ← cbmUnpacking7bitCharacter msg.data
    if payload.length ≤ payloadSize then some (some payload) else none
  else some none

variable {src dest : Bytes} {turns i : ℕ} {ch : UInt8}

theorem cbmUnpackedAt_eq (h : (i * 7 + 7) / 8 < src.length) :
    cbmUnpackedAt src i = some (unpackedSeptet (ofText src) i) := by
  have hlow : i * 7 / 8 < src.length := by omega
  unfold cbmUnpackedAt unpackedSeptet ofText
  simp only [Nat.shiftRight_eq_div_pow, Nat.reducePow, List.getElem?_eq_getElem h,
    List.getElem?_eq_getElem hlow]
  rfl

/-- The loop ends on the first septet that is zero, and that one is written. -/
theorem cbmUnpackingLoop_eq (h : ∀ k, i ≤ k → k < i + turns → (k * 7 + 7) / 8 < src.length)
    (hch : ch ≠ 0) (dest : Bytes) :
    cbmUnpackingLoop src turns i ch dest =
      some (dest ++ cutAfter (· = 0) ((List.range' i turns).map (unpackedSeptet (ofText src))),
        i + (cutAfter (· = 0) ((List.range' i turns).map (unpackedSeptet (ofText src)))).length) := by
  induction turns generalizing i ch dest with
  | zero =>
    rw [List.range'_zero, List.map_nil, cutAfter_nil, List.append_nil]
    rfl
  | succ turns ih =>
    have hfirst := cbmUnpackedAt_eq (h i le_rfl (by omega))
    rw [cbmUnpackingLoop, if_neg hch, hfirst, Option.bind_eq_bind, Option.bind_some, List.range'_succ,
      List.map_cons]
    by_cases hzero : unpackedSeptet (ofText src) i = 0
    · rw [cutAfter_stop (p := fun b : UInt8 => b = 0) (decide_eq_true hzero), hzero]
      cases turns with
      | zero => rfl
      | succ turns => rfl
    · rw [cutAfter_go (p := fun b : UInt8 => b = 0) (decide_eq_false hzero),
        ih (fun k hlow hhigh => h k (by omega) (by omega)) hzero, List.append_assoc, List.singleton_append,
        List.length_cons, Nat.add_assoc, Nat.add_comm 1]

def pageText (data : Bytes) : Bytes := cutAfter (· = 0) (septets data 93)

theorem pageText_length (data : Bytes) : (pageText data).length ≤ 93 := by
  have hle := (cutAfter_initial (· = 0) (septets data 93)).length_le
  rwa [septets_length] at hle

theorem cbmUnpacking_pageText (page : CbmPage) :
    cbmUnpacking7bitCharacter page.val =
        some (pageText page.val ++ [0], (pageText page.val).length) ∧
      (pageText page.val ++ [0]).length ≤ 94 := by
  have hread : ∀ k, 0 ≤ k → k < 0 + 93 → (k * 7 + 7) / 8 < page.val.length := by
    intro k _ hk
    have hlen := page.property
    omega
  have hloop := cbmUnpackingLoop_eq hread (by decide : (1 : UInt8) ≠ 0) []
  rw [← List.range_eq_range', ← septets_eq_map, List.nil_append, Nat.zero_add] at hloop
  constructor
  · rw [cbmUnpacking7bitCharacter, hloop]
    rfl
  · have hle := pageText_length page.val
    rw [List.length_append, List.length_singleton]
    omega

theorem cbsPduToMsg_page {msg : GsmdCbm} {pdulen len : ℤ}
    (h : cbsPduToMsg src pdulen len = some (.ok msg)) : msg.data.length = 82 := by
  unfold cbsPduToMsg at h
  split_ifs at h with hbad
  · cases h
  · simp only [Option.bind_eq_bind, Option.bind_eq_some_iff] at h
    obtain ⟨_, -, _, -, _, -, _, -, _, -, _, -, data, hdata, heq⟩ := h
    obtain rfl := Except.ok.inj (Option.some.inj heq)
    exact readOctets_length hdata

theorem incbmPayload_isSome {msg : GsmdCbm} {pdulen len : ℤ}
    (h : cbsPduToMsg src pdulen len = some (.ok msg)) : (incbmPayload msg).isSome = true := by
  obtain ⟨htext, hlen⟩ := cbmUnpacking_pageText ⟨msg.data, cbsPduToMsg_page h⟩
  have hfits : (pageText msg.data ++ [0]).length ≤ payloadSize := hlen.trans (by decide)
  unfold incbmPayload
  split_ifs with hscheme
  · rw [htext, Option.bind_eq_bind, Option.bind_some]
    dsimp only
    rw [if_pos hfits]
    rfl
  · rfl

end SystemTestSuite.Libgsmd
