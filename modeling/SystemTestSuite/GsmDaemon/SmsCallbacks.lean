import SystemTestSuite.GsmDaemon.UsockCallbacks

namespace SystemTestSuite.GsmDaemon

open Library

variable {κ : Type}

def smsMaxPduSize : ℕ := 180

def ts0705MemtypeName : List Bytes :=
  [ascii "NONE", ascii "BM", ascii "ME", ascii "MT", ascii "SM", ascii "TA", ascii "SR"]

def parseMemtype (memtype : Bytes) : ℕ := (ts0705MemtypeName.findIdx? (· = memtype)).getD 0

/-- At most `fuel` octets in hexadecimal, none when one of them cannot be read. -/
def readHexPdu : ℕ → Bytes → Option Bytes
  | 0, _ => some []
  | fuel + 1, a :: b :: rest =>
    if a ≥ 48 ∧ b ≥ 48 then do
      let octet ← scanHexPair a b
      let octets ← readHexPdu fuel rest
      return octet :: octets
    else some []
  | _, _ => some []

def GsmdSmsDatacodingscheme.bytes (d : GsmdSmsDatacodingscheme) : Bytes :=
  [d.msgClass, d.alphabet, d.isCompressed, d.mwiGroup, d.mwiActive, d.mwiKind].flatMap
    (fun b => intBytes b.toNat) ++ [d.rawDcsData]

def GsmdSms.bytes (s : GsmdSms) : Bytes :=
  [s.length, s.codingScheme] ++ intBytes s.hasHeader ++ intBytes s.isVoicemail ++ s.dcs.bytes ++
    s.data.slice 0 (gsmdSmsDataMaxlen + 1)

def GsmdAddr.bytes (a : GsmdAddr) : Bytes := a.type :: a.number.slice 0 (gsmdAddrMaxlen + 1)

def sizeofSmsList : ℕ := 256

def smsListMemory (m : Memory) (stat : ℤ) (last : Bytes) (msg : GsmdSmsList) : Memory :=
  ((((m.store 0 [msg.index]).store 4 (intBytes stat)).store 8
    (msg.timeStamp.slice 0 7 ++ msg.addr.bytes ++ msg.payload.bytes)).store 252 last)

def smsPduReply (u : Unset) (cmd : GsmdAtcmd κ) (msgSubtype index : UInt8) (stat len : ℤ)
    (last hex : Bytes) : Option CbOutcome :=
  match readHexPdu smsMaxPduSize hex with
  | none => some { rc := -EINVAL }
  | some pdu => do
    let array := pdu ++ u.array.slice pdu.length (smsMaxPduSize - pdu.length)
    let (rc, msg) ← smsPduToMsg { u.msg with index := index } array len pdu.length
    if rc ≠ 0 then return { rc := -EINVAL }
    else
      let ucmd := gsmdUcmdFill u.ucmd sizeofSmsList gsmdMsgSms msgSubtype cmd.msgId
      return { reply := some (ucmd.store 0
        ((smsListMemory u.array stat last msg).slice 0 sizeofSmsList)) }

def smsListCb (u : Unset) (cmd : GsmdAtcmd κ) (resp : Bytes) : Option CbOutcome :=
  if cmd.ret ≠ 0 ∧ cmd.ret ≠ -255 then some {}
  else
    let first := sscanf resp (ordinary "+CMGL: " ++ [.int true, .lit 44, .int true, .lit 44,
      .lit 44, .int true, .space, .count])
    let second := sscanf resp (ordinary "+CMGL: " ++ [.int true, .lit 44, .int true, .lit 44,
      .lit 34, .set none false notQuote, .lit 34, .lit 44, .int true, .space, .count])
    match (if first.1 < 3 then second else first).2 with
    | [.int idx, .int stat, .int len, .count cr] =>
      if len > 164 then some { rc := -EINVAL }
      else smsPduReply u cmd gsmdSmsList (intByte idx) stat len (isLast cmd) (resp.drop cr)
    | _ => some { rc := -EINVAL }

def smsReadCb (u : Unset) (cmd : GsmdAtcmd κ) (resp : Bytes) : Option CbOutcome :=
  if cmd.ret ≠ 0 then some {}
  else
    let first := sscanf resp (ordinary "+CMGR: " ++ [.int true, .lit 44, .lit 44, .int true,
      .space, .count])
    let second := sscanf resp (ordinary "+CMGR: " ++ [.int true, .lit 44, .int false, .lit 44,
      .int true, .space, .count])
    match (if first.1 < 2 then second else first).2 with
    | [.int stat, .int len, .count cr] =>
      if len > 164 then some { rc := -EINVAL }
      else
        let index :=
          match strchr cmd.buf 61 with
          | some colon =>
            if strncmp cmd.buf (ascii "AT+CMGR") 7 then intByte (atoi (cmd.buf.drop (colon + 1)))
            else 0
          | none => 0
        smsPduReply u cmd gsmdSmsRead index stat len (intBytes 1) (resp.drop cr)
    | _ => some { rc := -EINVAL }

def smsIntReply (u : Unset) (cmd : GsmdAtcmd κ) (msgSubtype : UInt8) (result : ℤ) :
    Option CbOutcome :=
  some { reply := some ((gsmdUcmdFill u.ucmd 4 gsmdMsgSms msgSubtype cmd.msgId).store 0
    (intBytes result)) }

def smsSendCb (u : Unset) (cmd : GsmdAtcmd κ) (resp : Bytes) : Option CbOutcome :=
  if cmd.ret = 0 ∨ cmd.ret = -255 then
    match sscanf resp (ordinary "+CMGS: " ++ [.int true]) with
    | (_, [.int msgref]) => smsIntReply u cmd gsmdSmsSend msgref
    | _ => some { rc := -EINVAL }
  else smsIntReply u cmd gsmdSmsSend (-cmd.ret)

def smsWriteCb (u : Unset) (cmd : GsmdAtcmd κ) (resp : Bytes) : Option CbOutcome :=
  if cmd.ret = 0 then
    match sscanf resp (ordinary "+CMGW: " ++ [.int true]) with
    | (_, [.int result]) => smsIntReply u cmd gsmdSmsWrite result
    | _ => some { rc := -EINVAL }
  else smsIntReply u cmd gsmdSmsWrite (-cmd.ret)

def smsDeleteCb (u : Unset) (cmd : GsmdAtcmd κ) : Option CbOutcome :=
  smsIntReply u cmd gsmdSmsDelete cmd.ret

def isCapital (b : UInt8) : Bool := 65 ≤ b && b ≤ 90

def storageFormat : List Directive :=
  [.lit 34, .set (some 2) true isCapital, .lit 34, .lit 44, .int true, .lit 44, .int true]

def storageBytes (memtype : Bytes) (used total : ℤ) : UInt8 × Bytes :=
  (UInt8.ofNat (parseMemtype memtype), intWord used ++ intWord total)

def GsmdUcmd.storeStorage (ucmd : GsmdUcmd) (i : ℕ) (memtype : Bytes) (used total : ℤ) :
    GsmdUcmd :=
  (ucmd.store (8 * i) [(storageBytes memtype used total).1]).store (8 * i + 4)
    (storageBytes memtype used total).2

def usockCpmsCb (u : Unset) (cmd : GsmdAtcmd κ) (resp : Bytes) : Option CbOutcome :=
  let ucmd := gsmdUcmdFill u.ucmd 24 gsmdMsgSms gsmdSmsGetMsgStorage cmd.msgId
  match sscanf resp (ordinary "+CPMS: " ++ storageFormat ++ [.lit 44] ++ storageFormat ++
    [.lit 44] ++ storageFormat) with
  | (_, [.text m0, .int used0, .int total0, .text m1, .int used1, .int total1, .text m2,
      .int used2, .int total2]) =>
    some { reply := some (((ucmd.storeStorage 0 m0 used0 total0).storeStorage 1 m1 used1
      total1).storeStorage 2 m2 used2 total2) }
  | _ => some { rc := -EINVAL }

def usockGetSmscCb (u : Unset) (cmd : GsmdAtcmd κ) (resp : Bytes) : Option CbOutcome :=
  let ucmd := gsmdUcmdFill u.ucmd 34 gsmdMsgSms gsmdSmsGetServiceCentre cmd.msgId
  match sscanf resp (ordinary "+CSCA: \"" ++ [.set (some 31) true notQuote, .lit 34, .lit 44,
    .int true]) with
  | (_, [.text number, .int type]) =>
    some { reply := some ((ucmd.store 1 (number ++ [0])).store 0 [intByte type]) }
  | _ => some { rc := -EINVAL }

end SystemTestSuite.GsmDaemon
