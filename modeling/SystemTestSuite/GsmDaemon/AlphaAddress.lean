import SystemTestSuite.GsmDaemon.SmsRead
import SystemTestSuite.Library.Septets

namespace SystemTestSuite.GsmDaemon

open Library

def alphaAddress (type : UInt8) (text : Bytes) : Bytes :=
  UInt8.ofNat ((7 * text.length + 3) / 4) :: type ::
    (List.range ((7 * text.length + 7) / 8)).map (packedOctet (ofText text))

variable {text : Bytes}

theorem semiOctets_range (n : ℕ) :
    (List.range ((7 * n + 3) / 4)).takeWhile (fun i => (i * 7 + 3) >>> 2 < (7 * n + 3) / 4) =
      List.range n := by
  have hfront : ∀ i ∈ List.range n, decide ((i * 7 + 3) >>> 2 < (7 * n + 3) / 4) = true := by
    intro i hi
    have hi := List.mem_range.mp hi
    rw [decide_eq_true_eq, Nat.shiftRight_eq_div_pow]
    omega
  obtain ⟨k, hk⟩ : ∃ k, (7 * n + 3) / 4 = n + k := ⟨(7 * n + 3) / 4 - n, by omega⟩
  have hsplit : List.range ((7 * n + 3) / 4) = List.range n ++ List.range' n k := by
    rw [hk, List.range_eq_range', List.range_eq_range', ← List.range'_append_1, Nat.zero_add]
  rw [hsplit, List.takeWhile_append_of_pos hfront]
  cases k with
  | zero => simp
  | succ k =>
    have hstop : ¬ (n * 7 + 3) >>> 2 < (7 * n + 3) / 4 := by
      rw [Nat.shiftRight_eq_div_pow]
      omega
    rw [List.range'_succ, List.takeWhile_cons, decide_eq_false hstop]
    exact List.append_nil _

theorem alphaAddress_get {type : UInt8} {behind : Bytes} (hbehind : behind ≠ []) {j : ℕ}
    (hj : j ≤ (7 * text.length + 7) / 8) :
    ∃ b, (alphaAddress type text ++ behind)[2 + j]? = some b ∧
      (j < (7 * text.length + 7) / 8 → b = packedOctet (ofText text) j) := by
  obtain ⟨octets, hoctets⟩ : ∃ octets, octets =
    (List.range ((7 * text.length + 7) / 8)).map (packedOctet (ofText text)) := ⟨_, rfl⟩
  have hlen : octets.length = (7 * text.length + 7) / 8 := by simp [hoctets]
  have hget : (alphaAddress type text ++ behind)[2 + j]? = (octets ++ behind)[j]? := by
    rw [alphaAddress, ← hoctets, Nat.add_comm 2 j]
    rfl
  rw [hget]
  rcases Nat.lt_or_eq_of_le hj with hlt | heq
  · refine ⟨packedOctet (ofText text) j, ?_, fun _ => rfl⟩
    rw [List.getElem?_append_left (hlen ▸ hlt), hoctets]
    simp [hlt]
  · obtain ⟨b, rest, rfl⟩ := List.exists_cons_of_ne_nil hbehind
    refine ⟨b, ?_, fun hlt => absurd heq hlt.ne⟩
    rw [List.getElem?_append_right (by omega), hlen, heq, Nat.sub_self]
    rfl

theorem addressSeptet_alpha {type : UInt8} {behind : Bytes} (hbehind : behind ≠ [])
    (hsmall : ∀ c ∈ text, c < 128) {i : ℕ} (hi : i < text.length) :
    addressSeptet (alphaAddress type text ++ behind) i = some text[i] := by
  obtain ⟨high, hhigh, hhigh'⟩ := @alphaAddress_get text type behind hbehind ((i * 7 + 7) / 8)
    (by omega)
  obtain ⟨low, hlow, hlow'⟩ := @alphaAddress_get text type behind hbehind (i * 7 / 8) (by omega)
  have hchar : ofText text i = text[i] := by simp [ofText, hi]
  have hbound : ofText text i < 128 := hchar ▸ hsmall _ (List.getElem_mem hi)
  -- the octets, with what is read behind them where a character ends on their end
  obtain ⟨m, hm⟩ : ∃ m : Memory, m = fun j =>
    ((alphaAddress type text ++ behind)[2 + j]?).getD 0 := ⟨_, rfl⟩
  have hpacked : ∀ j < (7 * text.length + 7) / 8, m j = packedOctet (ofText text) j := by
    intro j hj
    obtain ⟨b, hb, hb'⟩ := @alphaAddress_get text type behind hbehind j hj.le
    rw [hm]
    dsimp only
    rw [hb, Option.getD_some, hb' hj]
  have hunpacked : unpackedSeptet m i = ofText text i :=
    unpacked_packed (by omega) hbound hpacked
  have hm1 : m ((i * 7 + 7) / 8) = high := by
    rw [hm]
    dsimp only
    rw [hhigh, Option.getD_some]
  have hm2 : m (i * 7 / 8) = low := by
    rw [hm]
    dsimp only
    rw [hlow, Option.getD_some]
  rw [unpackedSeptet, hm1, hm2, hchar] at hunpacked
  rw [addressSeptet, Nat.shiftRight_eq_div_pow, Nat.shiftRight_eq_div_pow]
  have hthree : 2 ^ 3 = 8 := rfl
  rw [hthree, hhigh, hlow]
  exact congrArg some hunpacked

theorem smsAddress2ascii_alpha (dst : GsmdAddr) {type : UInt8} {behind : Bytes}
    (htype : type &&& toaTonMask = toaTonAlphanumeric) (hlen : text.length ≤ 18)
    (hchars : ∀ c ∈ text, 1 ≤ c ∧ c ≤ 127) (hbehind : behind ≠ []) :
    smsAddress2ascii dst (alphaAddress type text ++ behind) =
      some (0, ⟨type, (dst.number.store 0 text).store text.length [0]⟩) := by
  have hsmall : ∀ c ∈ text, c < 128 := fun c hc =>
    UInt8.lt_of_le_of_lt (hchars c hc).2 (by decide)
  have hn : (UInt8.ofNat ((7 * text.length + 3) / 4)).toNat = (7 * text.length + 3) / 4 := by
    rw [UInt8.toNat_ofNat']
    omega
  have hmax : ¬ (7 * text.length + 3) / 4 > gsmdAddrMaxlen := by
    rw [gsmdAddrMaxlen]
    omega
  have hread : (List.range text.length).mapM
      (addressSeptet (alphaAddress type text ++ behind)) = some text :=
    mapM_range (fun i hi => addressSeptet_alpha hbehind hsmall hi)
  have hlength : (alphaAddress type text ++ behind)[0]? =
      some (UInt8.ofNat ((7 * text.length + 3) / 4)) := rfl
  have htoa : (alphaAddress type text ++ behind)[1]? = some type := rfl
  rw [smsAddress2ascii, hlength]
  simp only [Option.bind_eq_bind, Option.bind_some, hn]
  rw [if_neg hmax, htoa]
  simp only [Option.bind_some]
  rw [if_pos htype, semiOctets_range, hread]
  rfl

theorem smsAddress2ascii_alpha_bank :
    smsAddress2ascii ⟨0, Memory.zero⟩ (alphaAddress 0xd0 (ascii "Bank 24h") ++ [0]) =
      some (0, ⟨0xd0, (Memory.zero.store 0 (ascii "Bank 24h")).store 8 [0]⟩) := by
  have hchars : (ascii "Bank 24h").all (fun c => 1 ≤ c ∧ c ≤ 127) = true := by decide
  exact smsAddress2ascii_alpha ⟨0, Memory.zero⟩ (by decide) (by decide) (by simpa using hchars) (by simp)

end SystemTestSuite.GsmDaemon
