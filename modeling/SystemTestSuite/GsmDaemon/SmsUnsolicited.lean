import SystemTestSuite.GsmDaemon.SmsCallbacks

/-!
The parsers of `gsmd/sms_cb.c` for messages that the modem hands on with their PDU. `none` is a read
through a NULL pointer or outside an array.
-/

namespace SystemTestSuite.GsmDaemon

open Library

def cbmMaxPduSize : ℕ := 88

def gsmdEvtInSms : ℕ := 2
def gsmdEvtInCbm : ℕ := 14
def gsmdEvtInDs : ℕ := 15

structure GsmdCbm where
  scope : UInt8
  msgCode : ℕ
  updateNum : UInt8
  msgId : ℕ
  language : UInt8
  codingScheme : UInt8
  pages : UInt8
  page : UInt8
  data : Bytes
  deriving DecidableEq, Repr

inductive InlinedEvent where
  | sms (evt : ℕ) (msg : GsmdSmsList)
  | cbm (msg : GsmdCbm)

def cbsPduToMsg (src : Bytes) (pdulen len : ℤ) : Option (Except ℤ GsmdCbm) :=
  if len ≠ pdulen ∨ len ≠ cbmMaxPduSize then some (.error 1)
  else do
    let serial : UInt8 ← src[0]?
    let serial' : UInt8 ← src[1]?
    let high : UInt8 ← src[2]?
    let low : UInt8 ← src[3]?
    let dcs : UInt8 ← src[4]?
    let pages : UInt8 ← src[5]?
    let data ← readOctets src 6 (cbmMaxPduSize - 6)
    return .ok
      { scope := (serial >>> 6) &&& (3 : UInt8)
        msgCode := (serial.toNat <<< 4 ||| serial'.toNat >>> 4) &&& 0x3ff
        updateNum := serial' &&& 0xf
        msgId := high.toNat <<< 8 ||| low.toNat
        language := dcs &&& 0xf
        codingScheme := ((dcs >>> 4) &&& (3 : UInt8)) <<< 2
        pages := pages &&& 0xf
        page := pages >>> 4
        data := data }

/-- The pointer that `unsolicited_parse` hands on, `none` when it is NULL. -/
def unsolicitedParam (buf : Bytes) (len : ℕ) : Option Bytes :=
  (strchr buf 58).bind fun colon =>
    if colon + 2 > len then none else some ((cstr buf).drop (colon + 2))

def pduHeader (number : Bytes) : Except ℤ (ℤ × Bytes) :=
  match (strtoul number).2 with
  | c :: hex => if c = LF then .ok (toInt32 (strtoul number).1, hex) else .error (-EAGAIN)
  | [] => .error (-EAGAIN)

def cmtHeader (param : Bytes) : Except ℤ (ℤ × Bytes) :=
  match strchr param 44 with
  | none => .error (-EINVAL)
  | some comma => pduHeader ((cstr param).drop (comma + 1))

/-- What stands in the array behind the octets read was there before. -/
def pduArray (u : Unset) (size : ℕ) (pdu : Bytes) : Bytes :=
  pdu ++ u.array.slice pdu.length (size - pdu.length)

def smsOfHex (u : Unset) (evt : ℕ) (len : ℤ) (hex : Bytes) : Option (Except ℤ InlinedEvent) :=
  match readHexPdu smsMaxPduSize hex with
  | none => some (.error (-EINVAL))
  | some pdu => do
    let (rc, msg) ← smsPduToMsg u.msg (pduArray u smsMaxPduSize pdu) len pdu.length
    return if rc ≠ 0 then .error (-EINVAL) else .ok (.sms evt msg)

def cbmOfHex (u : Unset) (len : ℤ) (hex : Bytes) : Option (Except ℤ InlinedEvent) :=
  match readHexPdu cbmMaxPduSize hex with
  | none => some (.error (-EINVAL))
  | some pdu => do
    let msg ← cbsPduToMsg (pduArray u cbmMaxPduSize pdu) len pdu.length
    return match msg with
      | .error _ => .error (-EINVAL)
      | .ok msg => .ok (.cbm msg)

def cmtParse (u : Unset) (param : Option Bytes) : Option (Except ℤ InlinedEvent) :=
  param.bind fun param =>
    match cmtHeader param with
    | .error rc => some (.error rc)
    | .ok (len, hex) => smsOfHex u gsmdEvtInSms len hex

def cbmParse (u : Unset) (param : Option Bytes) : Option (Except ℤ InlinedEvent) :=
  param.bind fun param =>
    match pduHeader param with
    | .error rc => some (.error rc)
    | .ok (len, hex) => cbmOfHex u len hex

def cdsParse (u : Unset) (param : Option Bytes) : Option (Except ℤ InlinedEvent) :=
  param.bind fun param =>
    match pduHeader param with
    | .error rc => some (.error rc)
    | .ok (len, hex) => smsOfHex u gsmdEvtInDs len hex

end SystemTestSuite.GsmDaemon
