import SystemTestSuite.GsmDaemon.SmsRead
import SystemTestSuite.Library.Septets

namespace SystemTestSuite.GsmDaemon

open Library

variable {dst : GsmdSmsList} {n type : UInt8} {address rest : Bytes}

def addressChar (address : Bytes) (i : ℕ) : UInt8 :=
  let octet := address[i / 2]?.getD 0
  (48 : UInt8) + if i % 2 = 0 then octet &&& 0xf else octet >>> 4

def addressText (type n : UInt8) (address : Bytes) : Bytes :=
  if type &&& toaTonMask = toaTonAlphanumeric then
    (List.range (4 * n.toNat / 7)).map (unpackedSeptet (ofText address))
  else (List.range n.toNat).map (addressChar address)

/-- The length of an alphanumeric address counts the half octets that its characters take. -/
def WellCounted (type n : UInt8) : Prop :=
  type &&& toaTonMask = toaTonAlphanumeric → ∃ k, n.toNat = (7 * k + 3) / 4

theorem takeWhile_range {p : ℕ → Bool} {k n : ℕ} (hk : k ≤ n) (hbelow : ∀ i < k, p i = true)
    (hend : p k = false) : (List.range n).takeWhile p = List.range k := by
  obtain ⟨m, rfl⟩ := Nat.exists_eq_add_of_le hk
  rw [List.range_add, List.takeWhile_append_of_pos (fun i hi => hbelow i (List.mem_range.mp hi))]
  cases m with
  | zero => simp
  | succ m =>
    rw [List.range_succ_eq_map, List.map_cons, Nat.add_zero,
      List.takeWhile_cons_of_neg (by rw [hend]; decide), List.append_nil]

theorem semiOctet_half (b : UInt8) (i : ℕ) :
    semiOctet b i = (48 : UInt8) + if i % 2 = 0 then b &&& 0xf else b >>> 4 := by
  rw [semiOctet, shift_and_four]
  rcases Nat.mod_two_eq_zero_or_one i with hi | hi
  · rw [hi, if_pos rfl]
    have hsame : b >>> UInt8.ofNat (4 * 0) = b := by
      apply UInt8.toNat_inj.mp
      rw [UInt8.toNat_shiftRight]
      rfl
    rw [hsame]
  · have hshift : UInt8.ofNat (4 * 1) = 4 := rfl
    have hhigh : (b >>> 4) &&& (0xf : UInt8) = b >>> 4 := by
      apply UInt8.toNat_inj.mp
      have hb := b.toNat_lt
      rw [UInt8.toNat_and, UInt8.toNat_shiftRight]
      change (b.toNat >>> 4) &&& (2 ^ 4 - 1) = b.toNat >>> 4
      rw [Nat.and_two_pow_sub_one_eq_mod, Nat.shiftRight_eq_div_pow]
      omega
    rw [hi, if_neg one_ne_zero, hshift, hhigh]

theorem addressDigit_char {i : ℕ} (hi : i / 2 < address.length) :
    addressDigit (n :: type :: (address ++ rest)) i = some (addressChar address i) := by
  have hskip : 2 + i >>> 1 = i / 2 + 1 + 1 := by
    rw [Nat.shiftRight_eq_div_pow]
    omega
  rw [addressDigit, hskip, List.getElem?_cons_succ, List.getElem?_cons_succ,
    List.getElem?_append_left hi, addressChar, List.getElem?_eq_getElem hi, Option.map_some,
    semiOctet_half]
  rfl

theorem addressSeptet_char {i : ℕ} (hi : 7 * i + 7 ≤ 8 * address.length) (hrest : rest ≠ []) :
    addressSeptet (n :: type :: (address ++ rest)) i =
      some (unpackedSeptet (ofText address) i) := by
  have hget (k : ℕ) : (n :: type :: (address ++ rest))[2 + k >>> 3]? =
      (address ++ rest)[k / 8]? := by
    rw [Nat.shiftRight_eq_div_pow, Nat.add_comm]
    rfl
  have hlow : i * 7 / 8 < address.length := by omega
  have hlast : 0 < rest.length := List.length_pos_of_ne_nil hrest
  have hin : (i * 7 + 7) / 8 < (address ++ rest).length := by
    rw [List.length_append]
    omega
  have hread : addressSeptet (n :: type :: (address ++ rest)) i =
      some (septetOf (address ++ rest)[(i * 7 + 7) / 8] address[i * 7 / 8] i) := by
    rw [addressSeptet, hget, hget, List.getElem?_append_left hlow, List.getElem?_eq_getElem hlow,
      List.getElem?_eq_getElem hin]
    rfl
  have hoctet {k : ℕ} (hk : k < address.length) : ofText address k = address[k] := by
    rw [ofText, List.getElem?_eq_getElem hk]
    rfl
  rw [hread, unpackedSeptet, hoctet hlow]
  by_cases hhigh : (i * 7 + 7) / 8 < address.length
  · rw [hoctet hhigh, List.getElem_append_left hhigh]
  · rw [septetOf_low (by omega)]

theorem smsAddress2ascii_text (dst : GsmdAddr) (hn : n.toNat ≤ gsmdAddrMaxlen)
    (haddress : address.length = (n.toNat + 1) / 2) (hrest : rest ≠ []) (hcount : WellCounted type n) :
    smsAddress2ascii dst (n :: type :: (address ++ rest)) =
      some (0, ⟨type, (dst.number.store 0 (addressText type n address)).store
        (addressText type n address).length [0]⟩) := by
  have hshort : ¬ n.toNat > gsmdAddrMaxlen := not_lt.mpr hn
  simp only [smsAddress2ascii, List.getElem?_cons_zero, List.getElem?_cons_succ,
    Option.bind_eq_bind, Option.bind_some, if_neg hshort]
  by_cases htype : type &&& toaTonMask = toaTonAlphanumeric
  · obtain ⟨k, hk⟩ := hcount htype
    have hchars : 4 * n.toNat / 7 = k := by omega
    have htext : addressText type n address =
        (List.range k).map (unpackedSeptet (ofText address)) := by
      rw [addressText, if_pos htype, hchars]
    have htake : (List.range n.toNat).takeWhile (fun i => (i * 7 + 3) >>> 2 < n.toNat) =
        List.range k := by
      apply takeWhile_range
      · omega
      · intro i hi
        rw [decide_eq_true_eq, Nat.shiftRight_eq_div_pow]
        omega
      · rw [decide_eq_false_iff_not, Nat.shiftRight_eq_div_pow]
        omega
    have hread := mapM_eq_map (l := List.range k) (fun i hi => @addressSeptet_char n type address
      rest i (by have hlt := List.mem_range.mp hi; omega) hrest)
    rw [if_pos htype, htake, hread, htext]
    rfl
  · have htext : addressText type n address = (List.range n.toNat).map (addressChar address) :=
      if_neg htype
    have hread := mapM_eq_map (l := List.range n.toNat) (fun i hi => @addressDigit_char n type address
      rest i (by have hlt := List.mem_range.mp hi; omega))
    rw [if_neg htype, hread, htext]
    rfl

structure ReportPdu where
  smsc : Bytes
  first : UInt8
  reference : UInt8
  digits : UInt8
  type : UInt8
  address : Bytes
  stamp : Bytes
  discharge : Bytes
  status : UInt8
  optional : Bytes
  smsc_length : smsc.length < 256
  mti : first &&& 3 = tpMtiStatusReport
  digits_le : digits.toNat ≤ 20
  counted : WellCounted type digits
  address_length : address.length = (digits.toNat + 1) / 2
  stamp_length : stamp.length = 7
  discharge_length : discharge.length = 7
  optional_le : optional.length ≤ 164

namespace ReportPdu

def tpdu (m : ReportPdu) : Bytes :=
  m.first :: m.reference :: m.digits :: m.type ::
    (m.address ++ (m.stamp ++ (m.discharge ++ m.status :: m.optional)))

def octets (m : ReportPdu) : Bytes := UInt8.ofNat m.smsc.length :: (m.smsc ++ m.tpdu)

structure Reported (m : ReportPdu) (msg : GsmdSmsList) : Prop where
  index : msg.index = m.reference
  type : msg.addr.type = m.type
  number : msg.addr.number.slice 0 ((addressText m.type m.digits m.address).length + 1) =
    addressText m.type m.digits m.address ++ [0]
  timeStamp : msg.timeStamp.slice 0 7 = m.stamp
  codingScheme : msg.payload.codingScheme = m.status

def Reports (m : ReportPdu) (extra : Bytes) : Prop :=
  ∀ dst, ∃ msg, smsPduToMsg dst (m.octets ++ extra) m.tpdu.length (m.octets ++ extra).length =
    some (0, msg) ∧ Reported m msg

end ReportPdu

theorem addressText_length (hn : n.toNat ≤ gsmdAddrMaxlen) :
    (addressText type n address).length ≤ gsmdAddrMaxlen := by
  rw [addressText]
  split_ifs
  · rw [List.length_map, List.length_range]
    omega
  · rw [List.length_map, List.length_range]
    exact hn

theorem pduStatusReport_eq {first reference : UInt8} {stamp body : Bytes} {addr : GsmdAddr}
    (haddr : smsAddress2ascii dst.addr (n :: type :: (address ++ (stamp ++ body))) = some (0, addr))
    (hn : address.length = (n.toNat + 1) / 2) (hstamp : stamp.length = 7) (hbody : 2 ≤ body.length) :
    ∃ status, body.getLast? = some status ∧
    pduStatusReport dst (first :: reference :: n :: type :: (address ++ (stamp ++ body)))
        (first :: reference :: n :: type :: (address ++ (stamp ++ body))).length =
      some (0, { dst with
        index := reference
        addr := addr
        timeStamp := dst.timeStamp.store 0 stamp
        payload := { dst.payload with
          codingScheme := status
          length := 0
          data := dst.payload.data.store 0 [0] } }) := by
  have hlen : (first :: reference :: n :: type :: (address ++ (stamp ++ body))).length =
      11 + (n.toNat + 1) / 2 + body.length := by
    simp only [List.length_cons, List.length_append, hn, hstamp]
    omega
  have hthree : ¬ ((11 + (n.toNat + 1) / 2 + body.length : ℕ) : ℤ) < 3 := by omega
  have hlong : ¬ ((11 + (n.toNat + 1) / 2 + body.length : ℕ) : ℤ) <
      13 + ((n.toNat + 1) / 2 : ℕ) := by omega
  have hne : body ≠ [] := List.ne_nil_of_length_pos (by omega)
  have hlast : (first :: reference :: n :: type :: (address ++ (stamp ++ body)))[
      (((11 + (n.toNat + 1) / 2 + body.length : ℕ) : ℤ) - 1).toNat]? = body.getLast? := by
    have hindex : (((11 + (n.toNat + 1) / 2 + body.length : ℕ) : ℤ) - 1).toNat =
        (first :: reference :: n :: type :: (address ++ (stamp ++ body))).length - 1 := by
      rw [hlen]
      omega
    have hsplit : first :: reference :: n :: type :: (address ++ (stamp ++ body)) =
        (first :: reference :: n :: type :: (address ++ stamp)) ++ body := by simp
    rw [hindex, ← List.getLast?_eq_getElem?, hsplit, List.getLast?_append_of_ne_nil _ hne]
  have hskip : (first :: reference :: n :: type :: (address ++ (stamp ++ body))).drop
      (4 + (n.toNat + 1) / 2) = stamp ++ body := by
    rw [Nat.add_comm, ← hn]
    exact List.drop_left
  have hread : readOctets (stamp ++ body) 0 7 = some stamp := by
    rw [← hstamp]
    exact @readOctets_append [] stamp body
  obtain ⟨status, hstatus⟩ : ∃ status, body.getLast? = some status :=
    ⟨_, List.getLast?_eq_some_getLast hne⟩
  refine ⟨status, hstatus, ?_⟩
  rw [hlen]
  simp only [pduStatusReport, if_neg hthree, hlast, hstatus, List.getElem?_cons_succ,
    List.getElem?_cons_zero, Option.bind_eq_bind, Option.bind_some, smsNumberBytelen_eq,
    if_neg hlong, List.drop_succ_cons, List.drop_zero, haddr, hskip, ne_eq, not_true_eq_false,
    if_false, hread]
  rfl

theorem getLast?_status {discharge more : Bytes} {status last : UInt8}
    (h : (discharge ++ status :: more).getLast? = some last) :
    last = status ↔ ∀ b ∈ more.getLast?, b = status := by
  rw [List.getLast?_append_of_ne_nil _ (List.cons_ne_nil _ _)] at h
  cases more with
  | nil =>
    obtain rfl : status = last := Option.some.inj h
    simp
  | cons b more =>
    rw [List.getLast?_cons_cons] at h
    rw [h]
    simp

namespace ReportPdu

theorem decode_eq (dst : GsmdSmsList) (m : ReportPdu) (extra : Bytes) : ∃ last msg,
    (m.discharge ++ m.status :: (m.optional ++ extra)).getLast? = some last ∧
    smsPduToMsg dst (m.octets ++ extra) m.tpdu.length (m.octets ++ extra).length = some (0, msg) ∧
    (Reported m msg ↔ last = m.status) := by
  have hsmsc : (UInt8.ofNat m.smsc.length).toNat = m.smsc.length := by
    rw [UInt8.toNat_ofNat']
    exact Nat.mod_eq_of_lt m.smsc_length
  have hdigits : m.digits.toNat ≤ gsmdAddrMaxlen := m.digits_le.trans (by decide)
  have htext := @addressText_length m.digits m.type m.address hdigits
  have hbound := m.digits_le
  have hopt := m.optional_le
  have hbody : 2 ≤ (m.discharge ++ m.status :: (m.optional ++ extra)).length := by
    rw [List.length_append, m.discharge_length]
    omega
  have hne : m.stamp ++ (m.discharge ++ m.status :: (m.optional ++ extra)) ≠ [] := by simp
  have haddr := @smsAddress2ascii_text m.digits m.type m.address _ (beforeType dst m.first).addr
    hdigits m.address_length hne m.counted
  obtain ⟨last, hlast, hreport⟩ := @pduStatusReport_eq (beforeType dst m.first) m.digits m.type
    m.address m.first m.reference m.stamp (m.discharge ++ m.status :: (m.optional ++ extra)) _ haddr
    m.address_length m.stamp_length hbody
  have htpdu : m.tpdu ++ extra = m.first :: m.reference :: m.digits :: m.type ::
      (m.address ++ (m.stamp ++ (m.discharge ++ m.status :: (m.optional ++ extra)))) := by
    simp [tpdu]
  have hcount : m.tpdu.length = 19 + (m.digits.toNat + 1) / 2 + m.optional.length := by
    simp only [tpdu, List.length_cons, List.length_append, m.address_length, m.stamp_length,
      m.discharge_length]
    omega
  have hoctets : m.octets ++ extra = UInt8.ofNat m.smsc.length :: (m.smsc ++ (m.tpdu ++ extra)) := by
    simp [octets]
  have hrest : (m.smsc ++ (m.tpdu ++ extra)).drop (UInt8.ofNat m.smsc.length).toNat =
      m.tpdu ++ extra := by
    rw [hsmsc, List.drop_left]
  have hlong : 1 + ((UInt8.ofNat m.smsc.length).toNat : ℤ) + m.tpdu.length ≤
      (UInt8.ofNat m.smsc.length :: (m.smsc ++ (m.tpdu ++ extra))).length := by
    rw [hsmsc, List.length_cons, List.length_append, List.length_append]
    omega
  have hpass := @smsPduToMsg_passed dst (UInt8.ofNat m.smsc.length) m.first
    (m.smsc ++ (m.tpdu ++ extra)) _ m.tpdu.length (by omega) (by omega) (Or.inl hlong) (hrest.trans htpdu)
  rw [pduOfType, if_neg (by rw [m.mti]; decide), if_neg (by rw [m.mti]; decide), if_pos m.mti,
    hreport] at hpass
  rw [hoctets]
  refine ⟨last, _, hlast, hpass, fun h => h.codingScheme, fun hstatus => ⟨rfl, rfl, ?_, ?_, hstatus⟩⟩
  · have hstored := Memory.slice_store_append (dst.addr.number.store 0
      (addressText m.type m.digits m.address)) 0 (addressText m.type m.digits m.address).length [0]
    rw [Nat.zero_add, Memory.slice_store_same] at hstored
    exact hstored
  · have hstored := Memory.slice_store_same dst.timeStamp 0 m.stamp
    rw [m.stamp_length] at hstored
    exact hstored

/-- A report is read right if and only if the last octet received behind TP-ST, if there is one,
happens to be the same. -/
theorem reports_iff (m : ReportPdu) (extra : Bytes) :
    Reports m extra ↔ ∀ b ∈ (m.optional ++ extra).getLast?, b = m.status := by
  constructor
  · intro h
    obtain ⟨last, msg, hlast, hread, hiff⟩ := decode_eq blankSmsList m extra
    obtain ⟨msg', hread', hreported⟩ := h blankSmsList
    obtain rfl : msg = msg' := (Prod.mk.inj (Option.some.inj (hread.symm.trans hread'))).2
    exact (getLast?_status hlast).mp (hiff.mp hreported)
  · intro h dst
    obtain ⟨last, msg, hlast, hread, hiff⟩ := decode_eq dst m extra
    exact ⟨msg, hread, hiff.mpr ((getLast?_status hlast).mpr h)⟩

def failedSample : ReportPdu where
  smsc := []
  first := 0x02
  reference := 1
  digits := 11
  type := 0x91
  address := exampleAddress
  stamp := exampleStamp
  discharge := [0x70, 0x10, 0x12, 0x02, 0x00, 0x00, 0x00]
  status := 0x40
  optional := [0x01, 0x00]
  smsc_length := noSmsc_length
  mti := by decide
  digits_le := exampleAddress_digits
  counted := fun h => absurd h (by decide)
  address_length := exampleAddress_length
  stamp_length := exampleStamp_length
  discharge_length := by decide
  optional_le := by decide

theorem failedSample_not_reported : ¬ ∀ m, Reports m [] := by
  intro hall
  have hlast := (reports_iff failedSample []).mp (hall failedSample) 0 rfl
  exact absurd hlast (by decide)

end ReportPdu

end SystemTestSuite.GsmDaemon
