import SystemTestSuite.Library.Framing

/-!
The messages on the sockets between the daemon and its clients, `include/gsmd/usock.h`. Words of
16 bits are stored with the low byte first.
-/

namespace SystemTestSuite.GsmDaemon

open Library

def gsmdProtoVersion : UInt8 := 1

def gsmdMsgEvent : UInt8 := 1
def gsmdMsgPassthrough : UInt8 := 2
def gsmdMsgVoicecall : UInt8 := 3
def gsmdMsgPhonebook : UInt8 := 5
def gsmdMsgNetwork : UInt8 := 6
def gsmdMsgPhone : UInt8 := 7
def gsmdMsgPin : UInt8 := 8
def gsmdMsgSms : UInt8 := 9
def gsmdMsgCb : UInt8 := 10
def numGsmdMsgs : UInt8 := 11

def gsmdPassthroughReq : UInt8 := 1
def gsmdPassthroughResp : UInt8 := 2

def gsmdVoicecallDial : UInt8 := 1
def gsmdVoicecallHangup : UInt8 := 2
def gsmdVoicecallAnswer : UInt8 := 3
def gsmdVoicecallDtmf : UInt8 := 4

def gsmdPinInput : UInt8 := 1

def gsmdPhonePowerup : UInt8 := 1
def gsmdPhonePowerdown : UInt8 := 2

def gsmdCbSubscribe : UInt8 := 1
def gsmdCbUnsubscribe : UInt8 := 2

def gsmdNetworkRegister : UInt8 := 1
def gsmdNetworkSigqGet : UInt8 := 2
def gsmdNetworkVmailGet : UInt8 := 3
def gsmdNetworkVmailSet : UInt8 := 4
def gsmdNetworkOperGet : UInt8 := 5
def gsmdNetworkOperList : UInt8 := 6
def gsmdNetworkDeregister : UInt8 := 8
def gsmdNetworkGetNumber : UInt8 := 9
def gsmdNetworkPrefList : UInt8 := 10
def gsmdNetworkPrefDel : UInt8 := 11
def gsmdNetworkPrefAdd : UInt8 := 12
def gsmdNetworkPrefSpace : UInt8 := 13

def gsmdSmsList : UInt8 := 1
def gsmdSmsRead : UInt8 := 2
def gsmdSmsSend : UInt8 := 3
def gsmdSmsWrite : UInt8 := 4
def gsmdSmsDelete : UInt8 := 5
def gsmdSmsGetMsgStorage : UInt8 := 6
def gsmdSmsSetMsgStorage : UInt8 := 7
def gsmdSmsGetServiceCentre : UInt8 := 8
def gsmdSmsSetServiceCentre : UInt8 := 9

def gsmdPhonebookFind : UInt8 := 1
def gsmdPhonebookRead : UInt8 := 2
def gsmdPhonebookReadrg : UInt8 := 3
def gsmdPhonebookWrite : UInt8 := 4
def gsmdPhonebookDelete : UInt8 := 5
def gsmdPhonebookGetSupport : UInt8 := 6
def gsmdPhonebookListStorage : UInt8 := 7
def gsmdPhonebookSetStorage : UInt8 := 8
def gsmdPhonebookRetrieveReadrg : UInt8 := 9
def gsmdPhonebookRetrieveFind : UInt8 := 10
def gsmdPhonebookGetImsi : UInt8 := 11

def gsmdEvtSubscriptions : UInt8 := 12

structure GsmdMsgHdr where
  version : UInt8
  msgType : UInt8
  msgSubtype : UInt8
  pad : UInt8
  id : UInt16
  len : UInt16
  deriving DecidableEq, Repr

def sizeofHdr : ℕ := 8

def wordBytes (w : UInt16) : Bytes := [UInt8.ofNat (w.toNat % 256), UInt8.ofNat (w.toNat / 256)]

def wordAt (m : Memory) (off : ℕ) : UInt16 :=
  UInt16.ofNat ((m off).toNat + 256 * (m (off + 1)).toNat)

def GsmdMsgHdr.bytes (h : GsmdMsgHdr) : Bytes :=
  [h.version, h.msgType, h.msgSubtype, h.pad] ++ wordBytes h.id ++ wordBytes h.len

def hdrAt (m : Memory) (off : ℕ) : GsmdMsgHdr where
  version := m off
  msgType := m (off + 1)
  msgSubtype := m (off + 2)
  pad := m (off + 3)
  id := wordAt m (off + 4)
  len := wordAt m (off + 6)

def intBytes (z : ℤ) : Bytes :=
  (List.range 4).map (fun i => UInt8.ofNat ((z % 2 ^ 32).toNat / 256 ^ i % 256))

def uintAt (m : Memory) (off : ℕ) : ℕ :=
  (m off).toNat + 256 * (m (off + 1)).toNat + 256 ^ 2 * (m (off + 2)).toNat +
    256 ^ 3 * (m (off + 3)).toNat

def intAt (m : Memory) (off : ℕ) : ℤ := Int.bmod (uintAt m off) (2 ^ 32)

structure GsmdMsg where
  hdr : GsmdMsgHdr
  payload : Bytes
  payload_length : payload.length = hdr.len.toNat

def GsmdMsg.bytes (p : GsmdMsg) : Bytes := p.hdr.bytes ++ p.payload

theorem word_of_bytes (w : UInt16) : UInt16.ofNat
    ((UInt8.ofNat (w.toNat % 256)).toNat + 256 * (UInt8.ofNat (w.toNat / 256)).toNat) = w := by
  have hw := w.toNat_lt
  have hlow : (UInt8.ofNat (w.toNat % 256)).toNat = w.toNat % 256 := by
    rw [UInt8.toNat_ofNat']
    omega
  have hhigh : (UInt8.ofNat (w.toNat / 256)).toNat = w.toNat / 256 := by
    rw [UInt8.toNat_ofNat']
    omega
  rw [hlow, hhigh, Nat.mod_add_div, UInt16.ofNat_toNat]

theorem bmod_small {n m : ℕ} (hn : 2 * n < m) : Int.bmod n m = n := by
  rw [Int.bmod_eq_of_le] <;> omega

theorem intAt_small {m : Memory} {off : ℕ} (h : uintAt m off < 2 ^ 31) :
    intAt m off = uintAt m off :=
  bmod_small (by omega)

theorem intAt_flag (m : Memory) (off : ℕ) {n : ℤ} (hn : n = 0 ∨ n = 1) :
    intAt (m.store off (intBytes n)) off = n := by
  have hvalue (b : UInt8) : uintAt (m.store off [b, 0, 0, 0]) off = b.toNat := by
    simp [uintAt, Memory.store]
  rcases hn with rfl | rfl
  · have hbytes : intBytes 0 = [0, 0, 0, 0] := by decide
    rw [hbytes, intAt_small, hvalue]
    · rfl
    · rw [hvalue]
      decide
  · have hbytes : intBytes 1 = [1, 0, 0, 0] := by decide
    rw [hbytes, intAt_small, hvalue]
    · rfl
    · rw [hvalue]
      decide

theorem uintAt_congr {m m' : Memory} {off : ℕ} (h : ∀ i, off ≤ i → i < off + 4 → m i = m' i) :
    uintAt m off = uintAt m' off := by
  unfold uintAt
  rw [h off (by omega) (by omega), h (off + 1) (by omega) (by omega),
    h (off + 2) (by omega) (by omega), h (off + 3) (by omega) (by omega)]

theorem intAt_congr {m m' : Memory} {off : ℕ} (h : ∀ i, off ≤ i → i < off + 4 → m i = m' i) :
    intAt m off = intAt m' off := congrArg (fun n : ℕ => Int.bmod n (2 ^ 32)) (uintAt_congr h)

theorem wordAt_store (m : Memory) (off : ℕ) (w : UInt16) : wordAt (m.store off (wordBytes w)) off = w := by
  have hlow : m.store off (wordBytes w) off = UInt8.ofNat (w.toNat % 256) :=
    Memory.store_inside m off (wordBytes w) (j := 0) (Nat.zero_lt_succ 1)
  have hhigh : m.store off (wordBytes w) (off + 1) = UInt8.ofNat (w.toNat / 256) :=
    Memory.store_inside m off (wordBytes w) (j := 1) (Nat.one_lt_succ_succ 0)
  rw [wordAt, hlow, hhigh, word_of_bytes]

theorem wordAt_congr {m m' : Memory} {off : ℕ} (h : m off = m' off) (h' : m (off + 1) = m' (off + 1)) :
    wordAt m off = wordAt m' off := by
  rw [wordAt, wordAt, h, h']

theorem intAt_store (m : Memory) (off : ℕ) {n : ℕ} (hn : n < 2 ^ 31) :
    intAt (m.store off (intBytes n)) off = n := by
  have hbyte (i : ℕ) (hi : i < 4) :
      (m.store off (intBytes n) (off + i)).toNat = n / 256 ^ i % 256 := by
    have hlen : i < (intBytes n).length := hi
    have hmod : ((n : ℤ) % 2 ^ 32).toNat = n := by omega
    rw [Memory.store_inside m off _ hlen]
    simp only [intBytes, List.getElem_map, List.getElem_range, hmod, UInt8.toNat_ofNat']
    omega
  have huint : uintAt (m.store off (intBytes n)) off = n := by
    have hfirst := hbyte 0 (by omega)
    rw [Nat.add_zero] at hfirst
    rw [uintAt, hfirst, hbyte 1 (by omega), hbyte 2 (by omega), hbyte 3 (by omega)]
    omega
  rw [intAt_small (by omega), huint]

theorem word_kept {n : ℕ} (h : n < 2 ^ 16) : (UInt16.ofNat n).toNat = n := by
  rw [UInt16.toNat_ofNat']
  exact Nat.mod_eq_of_lt h

theorem hdrAt_eq {m : Memory} {off : ℕ} {h : GsmdMsgHdr}
    (hm : ∀ k < sizeofHdr, m (off + k) = h.bytes.getD k 0) : hdrAt m off = h := by
  have hid : wordAt m (off + 4) = h.id := by
    rw [wordAt, hm 4 (by decide), Nat.add_assoc, hm 5 (by decide)]
    exact word_of_bytes h.id
  have hlen : wordAt m (off + 6) = h.len := by
    rw [wordAt, hm 6 (by decide), Nat.add_assoc, hm 7 (by decide)]
    exact word_of_bytes h.len
  rw [hdrAt, hid, hlen, ← Nat.add_zero off, hm 0 (by decide), Nat.add_zero, hm 1 (by decide),
    hm 2 (by decide), hm 3 (by decide)]
  rfl

theorem word_at_bytes (m : Memory) (off : ℕ) : wordBytes (wordAt m off) = m.slice off 2 := by
  have hlow := (m off).toNat_lt
  have hhigh := (m (off + 1)).toNat_lt
  have hword : (wordAt m off).toNat = (m off).toNat + 256 * (m (off + 1)).toNat := by
    rw [wordAt, UInt16.toNat_ofNat']
    omega
  rw [wordBytes, hword, Nat.add_mul_mod_self_left, Nat.add_mul_div_left _ _ (by decide),
    Nat.mod_eq_of_lt hlow, Nat.div_eq_of_lt hlow, Nat.zero_add, UInt8.ofNat_toNat,
    UInt8.ofNat_toNat]
  rfl

theorem hdrAt_bytes (m : Memory) (off : ℕ) : (hdrAt m off).bytes = m.slice off sizeofHdr := by
  rw [GsmdMsgHdr.bytes, hdrAt, word_at_bytes, word_at_bytes]
  rfl

theorem hdrAt_congr {m m' : Memory} {off off' : ℕ}
    (h : m.slice off sizeofHdr = m'.slice off' sizeofHdr) : hdrAt m off = hdrAt m' off' := by
  apply hdrAt_eq
  intro k hk
  have hk' : k < (m.slice off sizeofHdr).length := by rwa [Memory.slice_length]
  rw [hdrAt_bytes, ← h, List.getD_eq_getElem?_getD, List.getElem?_eq_getElem hk',
    Memory.slice_getElem]
  rfl

theorem hdrAt_store (m : Memory) (off : ℕ) (h : GsmdMsgHdr) (rest : Bytes) :
    hdrAt (m.store off (h.bytes ++ rest)) off = h := by
  apply hdrAt_eq
  intro k hk
  have hk' : k < h.bytes.length := hk
  have hall : k < (h.bytes ++ rest).length := by
    rw [List.length_append]
    omega
  rw [Memory.store_inside _ _ _ hall, List.getElem_append_left hk']
  simp [hk']

theorem GsmdMsgHdr.bytes_length (h : GsmdMsgHdr) : h.bytes.length = sizeofHdr := rfl

theorem GsmdMsgHdr.bytes_injective {h h' : GsmdMsgHdr} (heq : h.bytes = h'.bytes) : h = h' := by
  have hleft := hdrAt_store Memory.zero 0 h []
  rwa [heq, hdrAt_store, eq_comm] at hleft

theorem GsmdMsg.bytes_injective {p q : GsmdMsg} (heq : p.bytes = q.bytes) : p = q := by
  have hlen : p.hdr.bytes.length = q.hdr.bytes.length := by
    rw [GsmdMsgHdr.bytes_length, GsmdMsgHdr.bytes_length]
  obtain ⟨hhdr, hpayload⟩ := List.append_inj heq hlen
  have hhdr' := GsmdMsgHdr.bytes_injective hhdr
  cases p
  cases q
  simp only [GsmdMsg.mk.injEq]
  exact ⟨hhdr', hpayload⟩

theorem GsmdMsg.bytes_length (p : GsmdMsg) :
    p.bytes.length = sizeofHdr + p.hdr.len.toNat := by
  rw [bytes, List.length_append, GsmdMsgHdr.bytes_length, p.payload_length]

end SystemTestSuite.GsmDaemon
