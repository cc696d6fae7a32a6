import SystemTestSuite.GsmDaemon.SubmitBounds
import SystemTestSuite.Libgsmd.PhoneNumber
import SystemTestSuite.Libgsmd.SevenBit

/-!
The requests of the client library: `libgsmd.c` and `libgsmd_network.c`, `_voicecall.c`, `_phone.c`,
`_pin.c`, `_sms.c` and `_phonebook.c` under `libgsmd/`. A `char *` is the text it points to, a
`char` array is a memory; `malloc` is whether there is memory for the message.
-/

namespace SystemTestSuite.Libgsmd

open Library GsmDaemon

structure Gmh where
  hdr : GsmdMsgHdr
  data : Memory

def Gmh.bytes (gmh : Gmh) : Bytes := gmh.hdr.bytes ++ gmh.data.slice 0 gmh.hdr.len.toNat

def Gmh.store (gmh : Gmh) (off : ℕ) (bs : Bytes) : Gmh := { gmh with data := gmh.data.store off bs }

def enomemRc : ℤ := -12

def lgsmGmhFill (malloc : Bool) (type subtype : UInt8) (payloadLen : ℕ) : Except ℤ Gmh :=
  if malloc then
    .ok ⟨⟨gsmdProtoVersion, type, subtype, 0, 0, UInt16.ofNat payloadLen⟩, Memory.zero⟩
  else .error enomemRc

inductive SendCheck
  | returned
  | whole (n : ℕ)

/-- The result of `send` is compared as an unsigned number. -/
def SendCheck.rc (sent : ℤ) : SendCheck → ℤ
  | .returned => sent
  | .whole n => if sent % 2 ^ 32 < n then eioRc else 0

abbrev Prepared := Except ℤ (Gmh × SendCheck)

def lgsmSendSimple (malloc : Bool) (type subType : UInt8) : Prepared := do
  let gmh ← lgsmGmhFill malloc type subType 0
  return (gmh, .returned)

def sendWhole (gmh : Gmh) : Gmh × SendCheck := (gmh, .whole (gmh.hdr.len.toNat + sizeofHdr))

def lgsmOperGet (malloc : Bool) : Prepared := lgsmSendSimple malloc gsmdMsgNetwork gsmdNetworkOperGet

def lgsmOpersGet (malloc : Bool) : Prepared :=
  lgsmSendSimple malloc gsmdMsgNetwork gsmdNetworkOperList

def lgsmNetregRegister (malloc : Bool) (oper : Memory) : Prepared := do
  let gmh ← lgsmGmhFill malloc gsmdMsgNetwork gsmdNetworkRegister sizeofOperNumeric
  return sendWhole (gmh.store 0 (oper.slice 0 sizeofOperNumeric))

def lgsmNetregDeregister (malloc : Bool) : Prepared :=
  lgsmSendSimple malloc gsmdMsgNetwork gsmdNetworkDeregister

def lgsmSignalQuality (malloc : Bool) : Prepared :=
  lgsmSendSimple malloc gsmdMsgNetwork gsmdNetworkSigqGet

def lgsmPrefoperList (malloc : Bool) : Prepared :=
  lgsmSendSimple malloc gsmdMsgNetwork gsmdNetworkPrefList

def sendInt (malloc : Bool) (type subtype : UInt8) (n : Int32) : Prepared := do
  let gmh ← lgsmGmhFill malloc type subtype 4
  return sendWhole (gmh.store 0 (intBytes n.toInt))

def lgsmPrefoperDelete (malloc : Bool) (index : Int32) : Prepared :=
  sendInt malloc gsmdMsgNetwork gsmdNetworkPrefDel index

def lgsmPrefoperAdd (malloc : Bool) (oper : Memory) : Prepared := do
  let gmh ← lgsmGmhFill malloc gsmdMsgNetwork gsmdNetworkPrefAdd sizeofOperNumeric
  return sendWhole (gmh.store 0 (oper.slice 0 sizeofOperNumeric))

def lgsmPrefoperGetSpace (malloc : Bool) : Prepared :=
  lgsmSendSimple malloc gsmdMsgNetwork gsmdNetworkPrefSpace

def lgsmGetSubscriberNum (malloc : Bool) : Prepared :=
  lgsmSendSimple malloc gsmdMsgNetwork gsmdNetworkGetNumber

/-- The type is an enumeration, the array has 32 characters; one more is read behind it. -/
structure LgsmAddr where
  type : Int32
  addr : Memory

def lgsmVoiceOutInit (malloc : Bool) (number : LgsmAddr) : Prepared := do
  let gmh ← lgsmGmhFill malloc gsmdMsgVoicecall gsmdVoicecallDial sizeofAddr
  let gmh := gmh.store 0 [intByte number.type.toInt]
  let gmh := gmh.store 1 (number.addr.slice 0 (gsmdAddrMaxlen + 1))
  return sendWhole (gmh.store (1 + gsmdAddrMaxlen) [0])

/-- `sizeof(struct gsmd_dtmf)` is 1. -/
def lgsmVoiceDtmf (malloc : Bool) (dtmfChar : UInt8) : Prepared := do
  let gmh ← lgsmGmhFill malloc gsmdMsgVoicecall gsmdVoicecallDtmf (1 + 1)
  let gmh := gmh.store 0 [1, dtmfChar]
  return (gmh, .whole (gmh.hdr.len.toNat + (1 + 1)))

def lgsmVoiceInAccept (malloc : Bool) : Prepared :=
  lgsmSendSimple malloc gsmdMsgVoicecall gsmdVoicecallAnswer

def lgsmVoiceHangup (malloc : Bool) : Prepared :=
  lgsmSendSimple malloc gsmdMsgVoicecall gsmdVoicecallHangup

def gsmdVoicecallVolSet : UInt8 := 5

/-- The volume is not sent. -/
def lgsmVoiceVolumeSet (malloc : Bool) (_volume : Int32) : Prepared :=
  lgsmSendSimple malloc gsmdMsgVoicecall gsmdVoicecallVolSet

def lgsmPhonePower (malloc : Bool) (power : Int32) : Prepared :=
  lgsmSendSimple malloc gsmdMsgPhone (if power ≠ 0 then gsmdPhonePowerup else gsmdPhonePowerdown)

def numGsmdPin : ℕ := 16

def sizeofPin : ℕ := 22

/-- The second PIN may be NULL. -/
def lgsmPin (malloc : Bool) (type : UInt32) (pin : Bytes) (newpin : Option Bytes) : Prepared := do
  let long (s : Bytes) : Bool := gsmdPinMaxlen < (cstr s).length
  if long pin ∨ newpin.any long ∨ type.toNat ≥ numGsmdPin then throw einvalRc
  let gmh ← lgsmGmhFill malloc gsmdMsgPin gsmdPinInput sizeofPin
  let gmh := gmh.store 0 (intBytes type.toNat)
  let gmh := gmh.store 4 (cstr pin ++ [0])
  if type.toNat = gsmdPinSimPuk ∨ type.toNat = gsmdPinSimPuk2 then
    match newpin with
    | none => throw einvalRc
    | some newpin => return (gmh.store (4 + gsmdPinMaxlen + 1) (cstr newpin ++ [0]), .returned)
  else return (gmh, .returned)

def lgsmSmsList (malloc : Bool) (stat : Int32) : Prepared :=
  sendInt malloc gsmdMsgSms gsmdSmsList stat

def lgsmSmsRead (malloc : Bool) (index : Int32) : Prepared :=
  sendInt malloc gsmdMsgSms gsmdSmsRead index

def lgsmSmsDelete (malloc : Bool) (index delflg : Int32) : Prepared := do
  let gmh ← lgsmGmhFill malloc gsmdMsgSms gsmdSmsDelete 2
  return sendWhole (gmh.store 0 [intByte index.toInt, intByte delflg.toInt])

structure LgsmMessage extends LgsmSms where
  addr : Bytes
  askDs : Int32

/-- The lines that `lgsm_sms_send` and `lgsm_sms_write` share; the `struct gsmd_sms_submit` is at
`off`. -/
def fillSubmit (gmh : Gmh) (off : ℕ) (sms : LgsmMessage) : Except ℤ Gmh :=
  let r := lgsmNumber2addr ⟨gmh.data off, fun i => gmh.data (off + 1 + i)⟩ sms.addr true
  if r.1 ≠ 0 then .error einvalRc
  else
    let gmh := gmh.store off [r.2.type]
    let gmh := gmh.store (off + 1) (r.2.number.slice 0 (gsmdAddrMaxlen + 1))
    let gmh := gmh.store (off + 236) (intBytes sms.askDs.toInt)
    let gmh := gmh.store (off + 36) (intBytes 0)
    let gmh := gmh.store (off + 34) [UInt8.ofNat sms.length]
    let gmh := gmh.store (off + 35) [sms.alpha]
    .ok (gmh.store (off + 69) (sms.data.slice 0 lgsmSmsDataMaxlen))

def lgsmSmsSend (malloc : Bool) (sms : LgsmMessage) : Prepared := do
  let gmh ← lgsmGmhFill malloc gsmdMsgSms gsmdSmsSend sizeofSmsSubmit
  let gmh ← fillSubmit gmh 0 sms
  return sendWhole gmh

def lgsmSmsWrite (malloc : Bool) (stat : Int32) (sms : LgsmMessage) : Prepared := do
  let gmh ← lgsmGmhFill malloc gsmdMsgSms gsmdSmsWrite (1 + sizeofSmsSubmit)
  let gmh := gmh.store 0 [intByte stat.toInt]
  let gmh ← fillSubmit gmh 1 sms
  return sendWhole gmh

def lgsmSmsGetStorage (malloc : Bool) : Prepared :=
  lgsmSendSimple malloc gsmdMsgSms gsmdSmsGetMsgStorage

def lgsmSmsSetStorage (malloc : Bool) (mem1 mem2 mem3 : UInt32) : Prepared := do
  let gmh ← lgsmGmhFill malloc gsmdMsgSms gsmdSmsSetMsgStorage (3 * 4)
  let gmh := gmh.store 0 (intBytes mem1.toNat)
  let gmh := gmh.store 4 (intBytes mem2.toNat)
  return sendWhole (gmh.store 8 (intBytes mem3.toNat))

def lgsmSmsGetSmsc (malloc : Bool) : Prepared :=
  lgsmSendSimple malloc gsmdMsgSms gsmdSmsGetServiceCentre

def lgsmSmsSetSmscMsg (malloc : Bool) (number : Bytes) : Prepared := do
  let gmh ← lgsmGmhFill malloc gsmdMsgSms gsmdSmsSetServiceCentre sizeofAddr
  let r := lgsmNumber2addr ⟨gmh.data 0, fun i => gmh.data (1 + i)⟩ number false
  if r.1 ≠ 0 then throw einvalRc
  let gmh := gmh.store 0 [r.2.type]
  return sendWhole (gmh.store 1 (r.2.number.slice 0 (gsmdAddrMaxlen + 1)))

def lgsmCbSubscribe (malloc : Bool) : Prepared := lgsmSendSimple malloc gsmdMsgCb gsmdCbSubscribe

def lgsmCbUnsubscribe (malloc : Bool) : Prepared :=
  lgsmSendSimple malloc gsmdMsgCb gsmdCbUnsubscribe

def lgsmPbListStorage (malloc : Bool) : Prepared :=
  lgsmSendSimple malloc gsmdMsgPhonebook gsmdPhonebookListStorage

def lgsmPbSetStorage (malloc : Bool) (storage : Bytes) : Prepared := do
  let gmh ← lgsmGmhFill malloc gsmdMsgPhonebook gsmdPhonebookSetStorage 3
  let gmh := gmh.store 0 (strncpy storage 2)
  return sendWhole (gmh.store 2 [0])

def gsmdPbTextMaxlen : ℕ := 14
def gsmdPbNumbMaxlen : ℕ := 44

def lgsmPbFindEntry (malloc : Bool) (findtext : Memory) : Prepared := do
  let gmh ← lgsmGmhFill malloc gsmdMsgPhonebook gsmdPhonebookFind (gsmdPbTextMaxlen + 1)
  let gmh := gmh.store 0 (findtext.slice 0 (gsmdPbTextMaxlen + 1))
  return sendWhole (gmh.store gsmdPbTextMaxlen [0])

def lgsmPbReadEntry (malloc : Bool) (index : Int32) : Prepared :=
  sendInt malloc gsmdMsgPhonebook gsmdPhonebookRead index

def lgsmPbReadEntries (malloc : Bool) (index1 index2 : Int32) : Prepared := do
  let gmh ← lgsmGmhFill malloc gsmdMsgPhonebook gsmdPhonebookReadrg 2
  return sendWhole (gmh.store 0 [intByte index1.toInt, intByte index2.toInt])

def lgsmPbDelEntry (malloc : Bool) (index : Int32) : Prepared :=
  sendInt malloc gsmdMsgPhonebook gsmdPhonebookDelete index

structure LgsmPhonebook where
  index : Int32
  numb : Memory
  type : Int32
  text : Memory

def lgsmPbWriteEntry (malloc : Bool) (pb : LgsmPhonebook) : Prepared := do
  let gmh ← lgsmGmhFill malloc gsmdMsgPhonebook gsmdPhonebookWrite sizeofPhonebook
  let gmh := gmh.store 0 [intByte pb.index.toInt]
  let gmh := gmh.store pbNumb (pb.numb.slice 0 (gsmdPbNumbMaxlen + 1))
  let gmh := gmh.store (pbNumb + gsmdPbNumbMaxlen) [0]
  let gmh := gmh.store pbType [intByte pb.type.toInt]
  let gmh := gmh.store pbText (pb.text.slice 0 (gsmdPbTextMaxlen + 1))
  return sendWhole (gmh.store (pbText + gsmdPbTextMaxlen) [0])

def lgsmPbGetSupport (malloc : Bool) : Prepared :=
  lgsmSendSimple malloc gsmdMsgPhonebook gsmdPhonebookGetSupport

def lgsmPbRetrieveReadrg (malloc : Bool) (num : Int32) : Prepared :=
  sendInt malloc gsmdMsgPhonebook gsmdPhonebookRetrieveReadrg num

def lgsmPbRetrieveFind (malloc : Bool) (num : Int32) : Prepared :=
  sendInt malloc gsmdMsgPhonebook gsmdPhonebookRetrieveFind num

def lgsmGetImsi (malloc : Bool) : Prepared :=
  lgsmSendSimple malloc gsmdMsgPhonebook gsmdPhonebookGetImsi

inductive LgsmCall
  | operGet
  | opersGet
  | netregRegister (oper : Memory)
  | netregDeregister
  | signalQuality
  | prefoperList
  | prefoperDelete (index : Int32)
  | prefoperAdd (oper : Memory)
  | prefoperGetSpace
  | getSubscriberNum
  | voiceOutInit (number : LgsmAddr)
  | voiceDtmf (dtmfChar : UInt8)
  | voiceInAccept
  | voiceHangup
  | voiceVolumeSet (volume : Int32)
  | phonePower (power : Int32)
  | pin (type : UInt32) (pin : Bytes) (newpin : Option Bytes)
  | smsList (stat : Int32)
  | smsRead (index : Int32)
  | smsDelete (index delflg : Int32)
  | smsSend (sms : LgsmMessage)
  | smsWrite (stat : Int32) (sms : LgsmMessage)
  | smsGetStorage
  | smsSetStorage (mem1 mem2 mem3 : UInt32)
  | smsGetSmsc
  | smsSetSmsc (number : Bytes)
  | cbSubscribe
  | cbUnsubscribe
  | pbListStorage
  | pbSetStorage (storage : Bytes)
  | pbFindEntry (findtext : Memory)
  | pbReadEntry (index : Int32)
  | pbReadEntries (index1 index2 : Int32)
  | pbDelEntry (index : Int32)
  | pbWriteEntry (pb : LgsmPhonebook)
  | pbGetSupport
  | pbRetrieveReadrg (num : Int32)
  | pbRetrieveFind (num : Int32)
  | getImsi

def LgsmCall.prepare (malloc : Bool) : LgsmCall → Prepared
  | .operGet => lgsmOperGet malloc
  | .opersGet => lgsmOpersGet malloc
  | .netregRegister oper => lgsmNetregRegister malloc oper
  | .netregDeregister => lgsmNetregDeregister malloc
  | .signalQuality => lgsmSignalQuality malloc
  | .prefoperList => lgsmPrefoperList malloc
  | .prefoperDelete index => lgsmPrefoperDelete malloc index
  | .prefoperAdd oper => lgsmPrefoperAdd malloc oper
  | .prefoperGetSpace => lgsmPrefoperGetSpace malloc
  | .getSubscriberNum => lgsmGetSubscriberNum malloc
  | .voiceOutInit number => lgsmVoiceOutInit malloc number
  | .voiceDtmf dtmfChar => lgsmVoiceDtmf malloc dtmfChar
  | .voiceInAccept => lgsmVoiceInAccept malloc
  | .voiceHangup => lgsmVoiceHangup malloc
  | .voiceVolumeSet volume => lgsmVoiceVolumeSet malloc volume
  | .phonePower power => lgsmPhonePower malloc power
  | .pin type old new => lgsmPin malloc type old new
  | .smsList stat => lgsmSmsList malloc stat
  | .smsRead index => lgsmSmsRead malloc index
  | .smsDelete index delflg => lgsmSmsDelete malloc index delflg
  | .smsSend sms => lgsmSmsSend malloc sms
  | .smsWrite stat sms => lgsmSmsWrite malloc stat sms
  | .smsGetStorage => lgsmSmsGetStorage malloc
  | .smsSetStorage mem1 mem2 mem3 => lgsmSmsSetStorage malloc mem1 mem2 mem3
  | .smsGetSmsc => lgsmSmsGetSmsc malloc
  | .smsSetSmsc number => lgsmSmsSetSmscMsg malloc number
  | .cbSubscribe => lgsmCbSubscribe malloc
  | .cbUnsubscribe => lgsmCbUnsubscribe malloc
  | .pbListStorage => lgsmPbListStorage malloc
  | .pbSetStorage storage => lgsmPbSetStorage malloc storage
  | .pbFindEntry findtext => lgsmPbFindEntry malloc findtext
  | .pbReadEntry index => lgsmPbReadEntry malloc index
  | .pbReadEntries index1 index2 => lgsmPbReadEntries malloc index1 index2
  | .pbDelEntry index => lgsmPbDelEntry malloc index
  | .pbWriteEntry pb => lgsmPbWriteEntry malloc pb
  | .pbGetSupport => lgsmPbGetSupport malloc
  | .pbRetrieveReadrg num => lgsmPbRetrieveReadrg malloc num
  | .pbRetrieveFind num => lgsmPbRetrieveFind malloc num
  | .getImsi => lgsmGetImsi malloc

/-- What a call leaves behind: its result, the next message id and the message on the socket. -/
structure LgsmReturn where
  rc : ℤ
  nextMsgId : UInt16
  message : Option Bytes

/-- `goesOut` is whether `send` takes the message; it returns -1 otherwise. -/
def LgsmCall.run (nextMsgId : UInt16) (malloc goesOut : Bool) (call : LgsmCall) : LgsmReturn :=
  match call.prepare malloc with
  | .error rc => ⟨rc, nextMsgId, none⟩
  | .ok (gmh, check) =>
    let (hdr, nextMsgId) := lgsmSend nextMsgId gmh.hdr
    let bytes := Gmh.bytes { gmh with hdr := hdr }
    if goesOut then ⟨check.rc bytes.length, nextMsgId, some bytes⟩
    else ⟨check.rc (-1), nextMsgId, none⟩

end SystemTestSuite.Libgsmd
