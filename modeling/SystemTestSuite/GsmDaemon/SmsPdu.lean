import SystemTestSuite.Library.Hex
import SystemTestSuite.Library.SemiOctets

/-!
The conversion of raw PDUs of `gsmd/sms_pdu.c`. `none` is a read outside the octets of the PDU.
The fields that no function here sets or reads are left out. `char` is unsigned, as on the ARM
target.
-/

namespace SystemTestSuite.GsmDaemon

open Library

def gsmdAddrMaxlen : ℕ := 32
def gsmdSmsDataMaxlen : ℕ := 164

def alphabetDefault : UInt8 := (0x00 : UInt8) <<< 2
def alphabet8bit : UInt8 := (0x01 : UInt8) <<< 2
def alphabetUcs2 : UInt8 := (0x10 : UInt8) <<< 2

def toaTonAlphanumeric : UInt8 := (5 : UInt8) <<< 4
def toaTonMask : UInt8 := (7 : UInt8) <<< 4

def tpMtiDeliver : UInt8 := 0
def tpMtiSubmit : UInt8 := 1
def tpMtiStatusReport : UInt8 := 2
def tpVpfNotPresent : UInt8 := (0 : UInt8) <<< 3
def tpSrrNotRequest : UInt8 := (0 : UInt8) <<< 5
def tpSrrStatusRequest : UInt8 := (1 : UInt8) <<< 5
def tpUdhiNoHeader : UInt8 := (0 : UInt8) <<< 6
def tpUdhiWithHeader : UInt8 := (1 : UInt8) <<< 6
def tpRpNotSet : UInt8 := (0 : UInt8) <<< 7

def msgClassNone : UInt8 := 4
def smsAlphabet7bitDefault : UInt8 := 0
def smsAlphabet8bit : UInt8 := 1
def smsAlphabetUcs2 : UInt8 := 2
def messageWaitingNone : UInt8 := 0
def messageWaitingDiscard : UInt8 := 1
def messageWaitingStore : UInt8 := 2
def messageWaitingNone1111 : UInt8 := 3
def messageWaitingVoicemail : UInt8 := 0
def messageWaitingOther : UInt8 := 3

structure GsmdAddr where
  type : UInt8
  number : Memory

structure GsmdSmsDatacodingscheme where
  msgClass : UInt8
  alphabet : UInt8
  isCompressed : UInt8
  mwiGroup : UInt8
  mwiActive : UInt8
  mwiKind : UInt8
  rawDcsData : UInt8
  deriving DecidableEq, Repr

structure GsmdSms where
  length : UInt8
  codingScheme : UInt8
  hasHeader : ℤ
  isVoicemail : ℤ
  dcs : GsmdSmsDatacodingscheme
  data : Memory

structure GsmdSmsSubmit where
  addr : GsmdAddr
  payload : GsmdSms
  askDs : ℤ

structure GsmdSmsList where
  index : UInt8
  timeStamp : Memory
  addr : GsmdAddr
  payload : GsmdSms

def GsmdAddr.text (a : GsmdAddr) : Bytes := a.number.text (gsmdAddrMaxlen + 1)

def smsNumberBytelen (type len : UInt8) : ℕ :=
  if type &&& toaTonMask = toaTonAlphanumeric then (len.toNat + 1) >>> 1
  else (len.toNat + 1) >>> 1

def smsDataBytelen (dataCodingScheme len : UInt8) : ℕ :=
  if dataCodingScheme = alphabetDefault then (len.toNat * 7 + 7) >>> 3
  else if dataCodingScheme = alphabet8bit then len.toNat
  else if dataCodingScheme = alphabetUcs2 then len.toNat * 2
  else 0

def readOctets (src : Bytes) (off n : ℕ) : Option Bytes :=
  if off + n ≤ src.length then some ((src.drop off).take n) else none

def addressSeptet (src : Bytes) (i : ℕ) : Option UInt8 := do
  let high ← src[2 + ((i * 7 + 7) >>> 3)]?
  let low ← src[2 + ((i * 7) >>> 3)]?
  return (high <<< UInt8.ofNat (7 - ((i * 7 + 7) &&& 7)) |||
    low >>> UInt8.ofNat ((i * 7) &&& 7)) &&& 0x7f

def addressDigit (src : Bytes) (i : ℕ) : Option UInt8 :=
  src[2 + (i >>> 1)]?.map (semiOctet · i)

def smsAddress2ascii (dst : GsmdAddr) (src : Bytes) : Option (ℤ × GsmdAddr) := do
  let n ← src[0]?
  if n.toNat > gsmdAddrMaxlen then return (1, dst)
  else
    let type ← src[1]?
    let number ←
      if type &&& toaTonMask = toaTonAlphanumeric then
        ((List.range n.toNat).takeWhile (fun i => (i * 7 + 3) >>> 2 < n.toNat)).mapM
          (addressSeptet src)
      else (List.range n.toNat).mapM (addressDigit src)
    return (0, ⟨type, (dst.number.store 0 number).store number.length [0]⟩)

def smsPduDecodeDcs (data : UInt8) : GsmdSmsDatacodingscheme :=
  let dcs : GsmdSmsDatacodingscheme :=
    if data >>> 6 = 0 then
      { msgClass := if data &&& 0x10 ≠ 0 then data &&& 0x03 else msgClassNone
        alphabet := (data &&& 0x0c) >>> 2
        isCompressed := data &&& 0x20
        mwiGroup := messageWaitingNone
        mwiActive := 0
        mwiKind := messageWaitingOther
        rawDcsData := data }
    else if data >>> 6 = 3 then
      if data &&& 0x30 = 0x30 then
        { msgClass := data &&& 0x03
          alphabet := if data &&& 0x04 ≠ 0 then smsAlphabet8bit else smsAlphabet7bitDefault
          isCompressed := 0
          mwiGroup := messageWaitingNone1111
          mwiActive := 0
          mwiKind := messageWaitingOther
          rawDcsData := data }
      else
        { msgClass := msgClassNone
          alphabet := if data &&& 0x30 = 0x00 ∨ data &&& 0x30 = 0x10 then smsAlphabet7bitDefault
            else smsAlphabetUcs2
          isCompressed := 0
          mwiGroup := if data &&& 0x30 = 0x00 then messageWaitingDiscard else messageWaitingStore
          mwiActive := if data &&& 0x08 ≠ 0 then 1 else 0
          mwiKind := data &&& 0x03
          rawDcsData := data }
    else
      { msgClass := msgClassNone
        alphabet := smsAlphabet7bitDefault
        isCompressed := 0
        mwiGroup := messageWaitingNone
        mwiActive := 0
        mwiKind := messageWaitingOther
        rawDcsData := data }
  if dcs.alphabet > smsAlphabetUcs2 then { dcs with alphabet := smsAlphabet7bitDefault } else dcs

/-- The switch over TP-DCS, the same for both kinds of messages with user data. -/
def tpDcs (dcs : UInt8) : Option UInt8 :=
  if dcs >>> 4 ≤ 3 ∨ dcs >>> 4 = 0xc then some (dcs &&& 0xc)
  else if dcs >>> 4 = 0xd then some alphabetDefault
  else if dcs >>> 4 = 0xe then some alphabetUcs2
  else if dcs >>> 4 = 0xf then some (if dcs &&& 4 ≠ 0 then alphabet8bit else alphabetDefault)
  else none

def tpUserData (dst : GsmdSmsList) (src : Bytes) (len : ℤ) : Option (ℤ × GsmdSmsList) := do
  let udl ← src[0]?
  let dst := { dst with payload := { dst.payload with length := udl } }
  let i := smsDataBytelen dst.payload.codingScheme udl
  if len < 1 + i ∨ i > gsmdSmsDataMaxlen then return (1, dst)
  else
    let data ← readOctets src 1 i
    return (0, { dst with
      payload := { dst.payload with data := (dst.payload.data.store 0 data).store i [0] } })

def pduDeliver (dst : GsmdSmsList) (src : Bytes) (len : ℤ) : Option (ℤ × GsmdSmsList) :=
  if len < 3 then some (1, dst)
  else do
    let toa ← src[2]?
    let digits ← src[1]?
    let i := smsNumberBytelen toa digits
    if len < 13 + i then return (1, dst)
    else
      let addr ← smsAddress2ascii dst.addr (src.drop 1)
      let dst := { dst with addr := addr.2 }
      if addr.1 ≠ 0 then return (1, dst)
      else
        let src := src.drop (3 + i)
        let pid ← src[0]?
        let data ← src[1]?
        let dcs := smsPduDecodeDcs data
        let voicemail : ℤ :=
          if dcs.mwiKind = messageWaitingVoicemail ∧
            (dcs.mwiGroup = messageWaitingDiscard ∨ dcs.mwiGroup = messageWaitingStore) then 1
          else if pid = 0x5f then 1
          else dst.payload.isVoicemail
        let dst := { dst with payload := { dst.payload with isVoicemail := voicemail, dcs := dcs } }
        match tpDcs data with
        | none => return (1, dst)
        | some codingScheme =>
          let stamp ← readOctets src 2 7
          let dst := { dst with
            timeStamp := dst.timeStamp.store 0 stamp
            payload := { dst.payload with codingScheme := codingScheme } }
          tpUserData dst (src.drop 9) (len - (3 + i) - 9)

def pduSubmit (dst : GsmdSmsList) (vpf : UInt8) (src : Bytes) (len : ℤ) :
    Option (ℤ × GsmdSmsList) :=
  if len < 4 then some (1, dst)
  else do
    let toa ← src[3]?
    let digits ← src[2]?
    let i := smsNumberBytelen toa digits
    if len < 8 + i then return (1, dst)
    else
      let addr ← smsAddress2ascii dst.addr (src.drop 2)
      let dst := { dst with addr := addr.2 }
      if addr.1 ≠ 0 then return (1, dst)
      else
        let src := src.drop (4 + i)
        let data ← src[1]?
        match tpDcs data with
        | none => return (1, dst)
        | some codingScheme =>
          let skip := if vpf ≠ 0 then 3 else 2
          let dst := { dst with
            timeStamp := dst.timeStamp.fill 0 7 0
            payload := { dst.payload with codingScheme := codingScheme } }
          tpUserData dst (src.drop skip) (len - (4 + i) - skip)

/-- TP-MR goes to the index and TP-STATUS to the coding scheme. -/
def pduStatusReport (dst : GsmdSmsList) (src : Bytes) (len : ℤ) : Option (ℤ × GsmdSmsList) :=
  if len < 3 then some (1, dst)
  else do
    let reference ← src[1]?
    let status ← src[(len - 1).toNat]?
    let dst := { dst with
      index := reference
      payload := { dst.payload with codingScheme := status } }
    let toa ← src[3]?
    let digits ← src[2]?
    let i := smsNumberBytelen toa digits
    if len < 13 + i then return (1, dst)
    else
      let addr ← smsAddress2ascii dst.addr (src.drop 2)
      let dst := { dst with addr := addr.2 }
      if addr.1 ≠ 0 then return (1, dst)
      else
        let stamp ← readOctets (src.drop (4 + i)) 0 7
        return (0, { dst with
          timeStamp := dst.timeStamp.store 0 stamp
          payload := { dst.payload with length := 0, data := dst.payload.data.store 0 [0] } })

/-- The sum in the first check is an `int`. -/
def smsPduToMsg (dst : GsmdSmsList) (src : Bytes) (pdulen len : ℤ) : Option (ℤ × GsmdSmsList) :=
  if len < 1 then some (1, dst)
  else do
    let smsc ← src[0]?
    if len < Int.bmod (1 + smsc.toNat + pdulen) (2 ^ 32) ∨ pdulen < 1 then return (1, dst)
    else
      let len := len - (1 + smsc.toNat)
      let src := src.drop (1 + smsc.toNat)
      let first ← src[0]?
      let dst := { dst with
        payload := { dst.payload with
          isVoicemail := 0
          hasHeader := if first &&& tpUdhiWithHeader ≠ 0 then 1 else 0 } }
      let vpf := (first >>> 3) &&& 3
      if first &&& 3 = tpMtiDeliver then pduDeliver dst src len
      else if first &&& 3 = tpMtiSubmit then pduSubmit dst vpf src len
      else if first &&& 3 = tpMtiStatusReport then pduStatusReport dst src len
      else return (1, dst)

def blankSmsList : GsmdSmsList :=
  { index := 0
    timeStamp := Memory.zero
    addr := ⟨0, Memory.zero⟩
    payload := ⟨0, 0, 0, 0, smsPduDecodeDcs 0, Memory.zero⟩ }

def submitFlags (src : GsmdSmsSubmit) : UInt8 :=
  tpMtiSubmit ||| ((0 : UInt8) <<< 2) ||| tpVpfNotPresent |||
    (if src.askDs ≠ 0 then tpSrrStatusRequest else tpSrrNotRequest) |||
    (if src.payload.hasHeader ≠ 0 then tpUdhiWithHeader else tpUdhiNoHeader) ||| tpRpNotSet

def submitHeader (src : GsmdSmsSubmit) : Bytes :=
  ([0x00, submitFlags src, 0x00, UInt8.ofNat src.addr.text.length, src.addr.type] : Bytes) ++
    semiOctets src.addr.text ++
    ([0x00, src.payload.codingScheme, src.payload.length] : Bytes)

/-- What is written to `dest`, nothing when it is NULL, and the return value. -/
def smsPduMakeSmssubmit (dest : Bool) (src : GsmdSmsSubmit) : Bytes × ℕ :=
  let header := submitHeader src
  let len := smsDataBytelen src.payload.codingScheme src.payload.length
  (if dest then hexText header ++ hexText (src.payload.data.slice 0 len) else [],
    header.length + len)

end SystemTestSuite.GsmDaemon
