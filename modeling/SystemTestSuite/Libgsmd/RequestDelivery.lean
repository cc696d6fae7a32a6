import SystemTestSuite.Libgsmd.Requests

/-!
What a request of the client library is for: the daemon gives the modem the commands that the call
stands for, in the order of the calls.
-/

namespace SystemTestSuite.Libgsmd

open Library GsmDaemon

/-- What the AT layer is asked for: a command, or to cancel the command in progress with it. -/
structure Order where
  cancel : Bool
  text : Bytes
  cb : Option UsockCb
  ctx : ℕ
  id : ℕ
  deriving DecidableEq

def FilledAtcmd.order (cmd : FilledAtcmd UsockCb) (cancel : Bool) : Order :=
  ⟨cancel, cstr cmd.buf, cmd.cb, cmd.ctx, cmd.id⟩

def eventOrder : Event UsockCb → Option Order
  | .submit cmd => some (FilledAtcmd.order cmd false)
  | .cancel cmd => some (FilledAtcmd.order cmd true)
  | _ => none

def answer (r : Except Refusal Handled) : Option (List Order) :=
  r.toOption.map (fun handled => handled.events.filterMap eventOrder)

def ask (gu : ℕ) (id : UInt16) (cb : UsockCb) (text : Bytes) : Option (List Order) :=
  some [⟨false, cstr text, some cb, gu, id.toNat⟩]

def tell (ctx : ℕ) (id : UInt16) (text : Bytes) : Option (List Order) :=
  some [⟨false, cstr text, none, ctx, id.toNat⟩]

def field (m : Memory) (n : ℕ) : Bytes := cstr (m.slice 0 n)

def LgsmMessage.submit (sms : LgsmMessage) : GsmdSmsSubmit where
  addr := (lgsmNumber2addr ⟨0, Memory.zero⟩ sms.addr true).2
  payload := ⟨UInt8.ofNat sms.length, sms.alpha, 0, 0, ⟨0, 0, 0, 0, 0, 0, 0⟩,
    Memory.zero.store 0 (sms.data.slice 0 lgsmSmsDataMaxlen)⟩
  askDs := sms.askDs.toInt

def quoted (command : String) (text : Bytes) : Bytes := ascii command ++ text ++ ascii "\""

namespace LgsmCall

/-- The commands a call stands for, none when the daemon is to refuse it; `id` is the message id. -/
def orders (textMode : Bool) (gu : ℕ) (id : UInt16) : LgsmCall → Option (List Order)
  | .operGet => do
    let format ← ask gu 0 .nullCmdCb (ascii "AT+COPS=3,0")
    let cmd ← ask gu 0 .networkOperCb (ascii "AT+COPS?")
    return format ++ cmd
  | .opersGet => ask gu 0 .networkOpersCb (ascii "AT+COPS=?")
  | .netregRegister oper => ask gu 0 .nullCmdCb
    (if oper 0 ≠ 0 then quoted "AT+COPS=1,2,\"" (field oper sizeofOperNumeric)
    else ascii "AT+COPS=0")
  | .netregDeregister => ask gu 0 .nullCmdCb (ascii "AT+COPS=2")
  | .signalQuality => ask gu 0 .networkSigqCb (ascii "AT+CSQ")
  | .prefoperList => do
    let format ← ask gu 0 .nullCmdCb (ascii "AT+CPOL=,0")
    let cmd ← ask gu 0 .networkPrefOpersCb (ascii "AT+CPOL?")
    return format ++ cmd
  | .prefoperDelete index => ask gu 0 .nullCmdCb (ascii "AT+CPOL=" ++ printInt index.toInt)
  | .prefoperAdd oper =>
    ask gu 0 .nullCmdCb (quoted "AT+CPOL=,2,\"" (field oper sizeofOperNumeric))
  | .prefoperGetSpace => ask gu 0 .networkPrefNumCb (ascii "AT+CPOL=?")
  | .getSubscriberNum => ask gu 0 .networkOwnnumbersCb (ascii "AT+CNUM")
  | .voiceOutInit number =>
    ask gu id .usockCmdCb (ascii "ATD" ++ field number.addr gsmdAddrMaxlen ++ ascii ";")
  | .voiceDtmf dtmfChar => ask gu id .usockCmdCb (ascii "AT+VTS=" ++ [dtmfChar] ++ ascii ";")
  | .voiceInAccept => ask gu id .usockCmdCb (ascii "ATA")
  | .voiceHangup => some [⟨true, ascii "ATH", some .usockCmdCb, gu, id.toNat⟩]
  | .voiceVolumeSet _ => none
  | .phonePower power =>
    if power ≠ 0 then ask gu 0 .phonePowerupCb (ascii "AT+CFUN=1")
    else ask gu 0 .nullCmdCb (ascii "AT+CFUN=0")
  | .pin type old new => ask gu 0 .pinCmdCb
    (if type.toNat = gsmdPinSimPuk ∨ type.toNat = gsmdPinSimPuk2 then
      quoted "AT+CPIN=\"" (cstr old ++ ascii "\",\"" ++ cstr (new.getD []))
    else quoted "AT+CPIN=\"" (cstr old))
  | .smsList stat =>
    if stat.toInt < 0 ∨ stat.toInt > 4 then none
    else ask gu id .smsListCb
      (if textMode then quoted "AT+CMGL=\"" (gsmdCmglStat.getD stat.toInt.toNat [])
      else ascii "AT+CMGL=" ++ printInt stat.toInt)
  | .smsRead index => ask gu id .smsReadCb (ascii "AT+CMGR=" ++ printInt index.toInt)
  | .smsDelete index delflg => ask gu id .smsDeleteCb (ascii "AT+CMGD=" ++
    printInt (intByte index.toInt).toNat ++ ascii "," ++ printInt (intByte delflg.toInt).toNat)
  | .smsSend sms =>
    ask gu id .smsSendCb (commandText textMode "AT+CMGS=" [] sms.submit ++ [26])
  | .smsWrite stat sms =>
    if (intByte stat.toInt).toNat > 4 then none
    else ask gu id .smsWriteCb (commandText textMode "AT+CMGW="
      (ascii "," ++ printInt (intByte stat.toInt).toNat) sms.submit ++ [26])
  | .smsGetStorage => ask gu 0 .usockCpmsCb (ascii "AT+CPMS?")
  | .smsSetStorage mem1 mem2 mem3 => do
    let m1 ← ts0705MemtypeName[mem1.toNat]?
    let m2 ← ts0705MemtypeName[mem2.toNat]?
    let m3 ← ts0705MemtypeName[mem3.toNat]?
    tell gu id (quoted "AT+CPMS=\"" (m1 ++ ascii "\",\"" ++ m2 ++ ascii "\",\"" ++ m3))
  | .smsGetSmsc => ask gu 0 .usockGetSmscCb (ascii "AT+CSCA?")
  | .smsSetSmsc number => tell gu id (quoted "AT+CSCA=\"" (cstr number) ++ ascii "," ++
    printInt (storedType number).toNat)
  | .cbSubscribe => tell gsmdCtx 0 (ascii "AT+CSCB=1")
  | .cbUnsubscribe => tell gsmdCtx 0 (ascii "AT+CSCB=0")
  | .pbListStorage => ask gu id .phonebookListStorageCb (ascii "AT+CPBS=?")
  | .pbSetStorage storage =>
    ask gu id .usockCmdCb (quoted "AT+CPBS=\"" ((cstr storage).take 2))
  | .pbFindEntry findtext =>
    ask gu id .phonebookFindCb (quoted "AT+CPBF=\"" (field findtext gsmdPbTextMaxlen))
  | .pbReadEntry index => ask gu id .phonebookReadCb (ascii "AT+CPBR=" ++ printInt index.toInt)
  | .pbReadEntries index1 index2 => ask gu id .phonebookReadrgCb (ascii "AT+CPBR=" ++
    printInt (intByte index1.toInt).toNat ++ ascii "," ++ printInt (intByte index2.toInt).toNat)
  | .pbDelEntry index => ask gu id .phonebookDeleteCb (ascii "AT+CPBW=" ++ printInt index.toInt)
  | .pbWriteEntry pb => ask gu id .phonebookWriteCb (ascii "AT+CPBW=" ++
    printInt (intByte pb.index.toInt).toNat ++ ascii ",\"" ++ field pb.numb gsmdPbNumbMaxlen ++
    ascii "\"," ++ printInt (intByte pb.type.toInt).toNat ++ ascii ",\"" ++
    field pb.text gsmdPbTextMaxlen ++ ascii "\"")
  | .pbGetSupport => ask gu id .phonebookGetSupportCb (ascii "AT+CPBR=?")
  | .pbRetrieveReadrg num | .pbRetrieveFind num =>
    if tallocRefuses (sizeofPhonebook * (num.toInt % 2 ^ 32).toNat % 2 ^ 32) then none else some []
  | .getImsi => ask gu 0 .getImsiCb (ascii "AT+CIMI")

/-- A short message stays inside the arrays of the daemon, and no entry waits for a client that comes to
take them: the daemon ends at the first. -/
def Fits (textMode : Bool) (client : Client) : LgsmCall → Prop
  | .smsSend sms | .smsWrite _ sms => FitsArrays textMode sms.submit
  | .pbRetrieveReadrg _ => client.pbReadrgList = []
  | .pbRetrieveFind _ => client.pbFindList = []
  | _ => True

end LgsmCall

abbrev requestHdr (type subtype : UInt8) (id len : UInt16) : GsmdMsgHdr :=
  ⟨gsmdProtoVersion, type, subtype, 0, id, len⟩

structure Arrives (buf : Memory) (len : ℕ) (hdr : GsmdMsgHdr) (size : ℕ) (data : Memory) : Prop where
  header : hdrAt buf 0 = hdr
  whole : len = sizeofHdr + size
  bytes : ∀ k < size, buf (sizeofHdr + k) = data k

theorem Gmh.arrives (gmh : Gmh) (stale : Memory) : Arrives (stale.store 0 gmh.bytes)
    gmh.bytes.length gmh.hdr gmh.hdr.len.toNat gmh.data := by
  refine ⟨hdrAt_store .., ?_, fun k hk => ?_⟩
  · rw [Gmh.bytes, List.length_append, Memory.slice_length, GsmdMsgHdr.bytes_length]
  · have hlen : k < (gmh.data.slice 0 gmh.hdr.len.toNat).length := by rwa [Memory.slice_length]
    rw [Gmh.bytes, Memory.store_append, GsmdMsgHdr.bytes_length, Nat.zero_add,
      Memory.store_inside _ _ _ hlen, Memory.slice_getElem, Nat.zero_add]

theorem string?_cut {m : Memory} {off room n : ℕ} (hz : m (off + n) = 0) (hn : n < room) :
    m.string? off room = some (cstr (m.slice off n)) := by
  induction n generalizing off room with
  | zero =>
    obtain ⟨room, rfl⟩ : ∃ r, room = r + 1 := ⟨room - 1, by omega⟩
    exact if_pos hz
  | succ n ih =>
    obtain ⟨room, rfl⟩ : ∃ r, room = r + 1 := ⟨room - 1, by omega⟩
    rw [Memory.string?, Memory.slice]
    by_cases hb : m off = 0
    · rw [if_pos hb, hb]
      rfl
    · rw [if_neg hb, cstr_cons hb, ih (by rwa [Nat.add_assoc, Nat.add_comm 1]) (by omega)]
      rfl

theorem stringAt_cut {m : Memory} {off n : ℕ} (hz : m (off + n) = 0) (hn : off + n < rcvBufSize) :
    stringAt m off = cstr (m.slice off n) := by
  rw [stringAt, string?_cut hz (by omega)]
  rfl

namespace Arrives

variable {buf data : Memory} {len size n : ℕ} {hdr : GsmdMsgHdr}

theorem uint (h : Arrives buf len hdr size data) (k : ℕ) (hk : k + 4 ≤ size) :
    uintAt buf (sizeofHdr + k) = uintAt data k := by
  have hbyte (i : ℕ) (hi : i < 4) : buf (sizeofHdr + k + i) = data (k + i) := by
    rw [Nat.add_assoc]
    exact h.bytes (k + i) (by omega)
  rw [uintAt, uintAt, hbyte 1 (by omega), hbyte 2 (by omega), hbyte 3 (by omega),
    h.bytes k (by omega)]

theorem int (h : Arrives buf len hdr size data) (k : ℕ) (hk : k + 4 ≤ size) :
    intAt buf (sizeofHdr + k) = intAt data k :=
  congrArg (fun n : ℕ => Int.bmod n (2 ^ 32)) (h.uint k hk)

theorem slice (h : Arrives buf len hdr size data) (k : ℕ) (hk : k + n ≤ size) :
    buf.slice (sizeofHdr + k) n = data.slice k n := by
  rw [← Memory.slice_shift]
  exact Memory.slice_congr (fun i _ hi => h.bytes i (by omega))

theorem string (h : Arrives buf len hdr size data) (k : ℕ) (hz : data (k + n) = 0)
    (hk : k + n < size) (hsize : size ≤ 1000) :
    stringAt buf (sizeofHdr + k) = cstr (data.slice k n) := by
  have hroom : sizeofHdr + (k + n) < rcvBufSize := by
    rw [rcvBufSize, sizeofHdr]
    omega
  rw [stringAt_cut (by rw [Nat.add_assoc, h.bytes _ hk]; exact hz) (by rwa [Nat.add_assoc]),
    h.slice k (by omega)]

end Arrives

section

variable {text : Bytes} {rlen gu : ℕ} {cb : Option UsockCb} {id : UInt16} {client : Client}

theorem cstr_strncpy {text : Bytes} {n : ℕ} (h : (cstr text).length ≤ n) :
    cstr (strncpy text n ++ [0]) = cstr text := by
  have hzeros (m : ℕ) : cstr (List.replicate m 0 ++ [0]) = [] := by
    cases m <;> rfl
  rw [strncpy, List.take_of_length_le h, List.append_assoc, cstr_append cstr_ne_zero, hzeros,
    List.append_nil]

theorem cstr_strncpy_cut {text : Bytes} {n : ℕ} : cstr (strncpy text n) = (cstr text).take n := by
  have hzeros (m : ℕ) : cstr (List.replicate m 0) = [] := by
    cases m <;> rfl
  rw [strncpy, cstr_append (fun b hb => cstr_ne_zero b (List.mem_of_mem_take hb)), hzeros,
    List.append_nil]

theorem start_fits {start : Bytes} {n : ℕ} (h : start.length ≤ n) :
    (cstr start).length < 1 + n := by
  have hle := cstr_length_le start
  omega

theorem filled_order (h : (cstr text).length < rlen) : ∃ cmd, filled text rlen cb gu id = .ok cmd ∧
    ∀ cancel, FilledAtcmd.order cmd cancel = ⟨cancel, cstr text, cb, gu, id.toNat⟩ := by
  refine ⟨⟨gu, cb, id.toNat, strncpy text (rlen - 1) ++ [0], by simp⟩, ?_, fun cancel => ?_⟩
  · have hfill : atcmdFill text rlen cb gu id.toNat =
        some ⟨gu, cb, id.toNat, strncpy text (rlen - 1) ++ [0], by simp⟩ := by
      simp only [atcmdFill, if_pos h]
      exact if_neg (by omega)
    rw [filled, hfill]
  · rw [FilledAtcmd.order, cstr_strncpy (by omega)]

theorem cstr_append_nul {text rest : Bytes} : cstr (text ++ 0 :: rest) = cstr text := by
  induction text with
  | nil => rfl
  | cons b text ih =>
    by_cases hb : b = 0
    · rw [hb]
      rfl
    · rw [List.cons_append, cstr_cons hb, cstr_cons hb, ih]

theorem print_order (cmd : FilledAtcmd UsockCb) (cancel : Bool) :
    FilledAtcmd.order (cmd.print text) cancel =
      { FilledAtcmd.order cmd cancel with text := cstr text } := by
  rw [FilledAtcmd.order, FilledAtcmd.print, cstr_append_nul]
  rfl

theorem sized_order : ∃ cmd, sized text cb gu id = .ok cmd ∧
    ∀ cancel, FilledAtcmd.order cmd cancel = ⟨cancel, cstr text, cb, gu, id.toNat⟩ := by
  have hle : (cstr text).length ≤ text.length := (List.takeWhile_prefix _).length_le
  exact filled_order (by omega)

theorem answer_sized : answer (do return submits client (← sized text cb gu id)) =
    some [⟨false, cstr text, cb, gu, id.toNat⟩] := by
  obtain ⟨cmd, hcmd, horder⟩ := @sized_order text gu cb id
  rw [hcmd]
  exact congrArg (fun o => some [o]) (horder false)

theorem answer_print {start : Bytes} (h : (cstr start).length < rlen) :
    answer (do
      let cmd ← filled start rlen cb gu id
      return submits client (cmd.print text)) = some [⟨false, cstr text, cb, gu, id.toNat⟩] := by
  obtain ⟨cmd, hcmd, horder⟩ := @filled_order start rlen gu cb id h
  have hprint := @print_order text cmd false
  rw [horder] at hprint
  rw [hcmd]
  exact congrArg (fun o => some [o]) hprint

end

section

variable {textMode : Bool} {block : GsmdUcmd} {gu : ℕ} {client : Client} {buf data : Memory}
  {len : ℕ} {id : UInt16} {hdr : GsmdMsgHdr}

theorem rcv_network (h : hdrAt buf 0 = hdr) (hv : hdr.version = gsmdProtoVersion)
    (ht : hdr.msgType = gsmdMsgNetwork) : usockRcvMessage textMode block gu client buf len =
      usockRcvNetwork gu client buf := by
  rw [usockRcvMessage, usockRcvPcmd, h, hv, ht]
  rfl

theorem rcv_voicecall (h : hdrAt buf 0 = hdr) (hv : hdr.version = gsmdProtoVersion)
    (ht : hdr.msgType = gsmdMsgVoicecall) : usockRcvMessage textMode block gu client buf len =
      usockRcvVoicecall gu client buf len := by
  rw [usockRcvMessage, usockRcvPcmd, h, hv, ht]
  rfl

theorem rcv_pin (h : hdrAt buf 0 = hdr) (hv : hdr.version = gsmdProtoVersion)
    (ht : hdr.msgType = gsmdMsgPin) : usockRcvMessage textMode block gu client buf len =
      usockRcvPin gu client buf len := by
  rw [usockRcvMessage, usockRcvPcmd, h, hv, ht]
  rfl

theorem rcv_phone (h : hdrAt buf 0 = hdr) (hv : hdr.version = gsmdProtoVersion)
    (ht : hdr.msgType = gsmdMsgPhone) : usockRcvMessage textMode block gu client buf len =
      usockRcvPhone gu client buf := by
  rw [usockRcvMessage, usockRcvPcmd, h, hv, ht]
  rfl

theorem rcv_sms (h : hdrAt buf 0 = hdr) (hv : hdr.version = gsmdProtoVersion)
    (ht : hdr.msgType = gsmdMsgSms) : usockRcvMessage textMode block gu client buf len =
      usockRcvSms textMode gu client buf len := by
  rw [usockRcvMessage, usockRcvPcmd, h, hv, ht]
  rfl

theorem rcv_cb (h : hdrAt buf 0 = hdr) (hv : hdr.version = gsmdProtoVersion)
    (ht : hdr.msgType = gsmdMsgCb) : usockRcvMessage textMode block gu client buf len =
      usockRcvCb client buf := by
  rw [usockRcvMessage, usockRcvPcmd, h, hv, ht]
  rfl

theorem rcv_phonebook (h : hdrAt buf 0 = hdr) (hv : hdr.version = gsmdProtoVersion)
    (ht : hdr.msgType = gsmdMsgPhonebook) : usockRcvMessage textMode block gu client buf len =
      usockRcvPhonebook block gu client buf len := by
  rw [usockRcvMessage, usockRcvPcmd, h, hv, ht]
  rfl

theorem netregRegister_answered {oper : Memory}
    (h : Arrives buf len (requestHdr gsmdMsgNetwork gsmdNetworkRegister id 6) 6 data)
    (hoper : data.slice 0 6 = oper.slice 0 6) :
    answer (usockRcvMessage textMode block gu client buf len) =
      LgsmCall.orders textMode gu id (.netregRegister oper) := by
  have htext : stringWithin buf sizeofHdr sizeofOperNumeric = field oper sizeofOperNumeric :=
    congrArg cstr ((h.slice 0 (by decide)).trans hoper)
  have hfirst : buf sizeofHdr = oper 0 := (h.bytes 0 (by decide)).trans (List.cons.inj hoper).1
  rw [rcv_network h.header rfl rfl, usockRcvNetwork, h.header]
  refine answer_sized.trans ?_
  rw [htext, hfirst]
  rfl

theorem prefoperAdd_answered {oper : Memory}
    (h : Arrives buf len (requestHdr gsmdMsgNetwork gsmdNetworkPrefAdd id 6) 6 data)
    (hoper : data.slice 0 6 = oper.slice 0 6) :
    answer (usockRcvMessage textMode block gu client buf len) =
      LgsmCall.orders textMode gu id (.prefoperAdd oper) := by
  have htext : stringWithin buf sizeofHdr sizeofOperNumeric = field oper sizeofOperNumeric :=
    congrArg cstr ((h.slice 0 (by decide)).trans hoper)
  rw [rcv_network h.header rfl rfl, usockRcvNetwork, h.header]
  refine answer_sized.trans ?_
  rw [htext]
  rfl

theorem prefoperDelete_answered {index : Int32}
    (h : Arrives buf len (requestHdr gsmdMsgNetwork gsmdNetworkPrefDel id 4) 4 data)
    (hindex : intAt data 0 = index.toInt) :
    answer (usockRcvMessage textMode block gu client buf len) =
      LgsmCall.orders textMode gu id (.prefoperDelete index) := by
  rw [rcv_network h.header rfl rfl, usockRcvNetwork, h.header]
  refine answer_sized.trans ?_
  have hint : intAt buf sizeofHdr = index.toInt := (h.int 0 le_rfl).trans hindex
  rw [hint]
  rfl

theorem voiceOutInit_answered {number : LgsmAddr}
    (h : Arrives buf len (requestHdr gsmdMsgVoicecall gsmdVoicecallDial id 34) 34 data)
    (hnumber : data.slice 1 32 = number.addr.slice 0 32) :
    answer (usockRcvMessage textMode block gu client buf len) =
      LgsmCall.orders textMode gu id (.voiceOutInit number) := by
  obtain rfl := h.whole
  have htext : stringAt (buf.store (sizeofHdr + 1 + gsmdAddrMaxlen) [0]) (sizeofHdr + 1) =
      field number.addr gsmdAddrMaxlen := by
    have hend : buf.store (sizeofHdr + 1 + gsmdAddrMaxlen) [0] (sizeofHdr + 1 + gsmdAddrMaxlen) = 0 :=
      Memory.store_inside _ _ (j := 0) [0] Nat.zero_lt_one
    rw [stringAt_cut hend (by decide), Memory.slice_store_before _ _ le_rfl]
    exact congrArg cstr ((h.slice 1 (by decide)).trans hnumber)
  rw [rcv_voicecall h.header rfl rfl, usockRcvVoicecall, h.header, htext]
  refine (answer_print ?_).trans rfl
  have hstart : (cstr (ascii "ATD")).length = 3 := by decide
  omega

theorem voiceDtmf_answered {dtmfChar : UInt8}
    (h : Arrives buf len (requestHdr gsmdMsgVoicecall gsmdVoicecallDtmf id 2) 2 data)
    (hlen : data 0 = 1) (hchar : data 1 = dtmfChar) :
    answer (usockRcvMessage textMode block gu client buf len) =
      LgsmCall.orders textMode gu id (.voiceDtmf dtmfChar) := by
  obtain rfl := h.whole
  have hone : buf sizeofHdr = 1 := (h.bytes 0 (by decide)).trans hlen
  have hchar' : buf (sizeofHdr + 1) = dtmfChar := (h.bytes 1 (by decide)).trans hchar
  rw [rcv_voicecall h.header rfl rfl, usockRcvVoicecall, h.header, hone, hchar']
  exact answer_print (by decide)

theorem pin_answered {type : UInt32} {old : Bytes} {new : Option Bytes}
    (h : Arrives buf len (requestHdr gsmdMsgPin gsmdPinInput id 22) 22 data)
    (htype : uintAt data 0 = type.toNat) (hold : data.slice 4 (cstr old).length = cstr old)
    (holdEnd : data (4 + (cstr old).length) = 0) (holdLen : (cstr old).length ≤ gsmdPinMaxlen)
    (hnew : type.toNat = gsmdPinSimPuk ∨ type.toNat = gsmdPinSimPuk2 →
      (cstr (new.getD [])).length ≤ gsmdPinMaxlen ∧
        data.slice 13 (cstr (new.getD [])).length = cstr (new.getD []) ∧
        data (13 + (cstr (new.getD [])).length) = 0) :
    answer (usockRcvMessage textMode block gu client buf len) =
      LgsmCall.orders textMode gu id (.pin type old new) := by
  obtain rfl := h.whole
  have hmax : gsmdPinMaxlen = 8 := rfl
  have htype' : uintAt buf sizeofHdr = type.toNat := (h.uint 0 (by decide)).trans htype
  have hold' : stringAt buf (sizeofHdr + 4) = cstr old := by
    rw [h.string 4 holdEnd (by omega) (by decide), hold, cstr_of_no_nul cstr_ne_zero]
  rw [rcv_pin h.header rfl rfl, usockRcvPin, h.header, htype', hold']
  refine (answer_print (by decide)).trans ?_
  rw [LgsmCall.orders]
  by_cases hpuk : type.toNat = gsmdPinSimPuk ∨ type.toNat = gsmdPinSimPuk2
  · obtain ⟨hlen, hslice, hend⟩ := hnew hpuk
    have hnew' : stringAt buf (sizeofHdr + 4 + gsmdPinMaxlen + 1) = cstr (new.getD []) := by
      rw [Nat.add_assoc, Nat.add_assoc, h.string (4 + (gsmdPinMaxlen + 1)) hend (by omega) (by decide)]
      exact (congrArg cstr hslice).trans (cstr_of_no_nul cstr_ne_zero)
    rw [if_pos hpuk, if_pos hpuk, hnew']
    simp only [ask, quoted, List.append_assoc]
  · rw [if_neg hpuk, if_neg hpuk, List.append_nil]
    rfl

theorem smsList_answered {stat : Int32}
    (h : Arrives buf len (requestHdr gsmdMsgSms gsmdSmsList id 4) 4 data)
    (hstat : intAt data 0 = stat.toInt) :
    answer (usockRcvMessage textMode block gu client buf len) =
      LgsmCall.orders textMode gu id (.smsList stat) := by
  obtain rfl := h.whole
  have hint : intAt buf sizeofHdr = stat.toInt := (h.int 0 le_rfl).trans hstat
  rw [rcv_sms h.header rfl rfl, usockRcvSms, h.header, hint, LgsmCall.orders]
  by_cases hrange : stat.toInt < 0 ∨ stat.toInt > 4
  · rw [if_pos hrange, if_pos hrange]
    rfl
  · rw [if_neg hrange, if_neg hrange]
    exact answer_sized

theorem smsRead_answered {index : Int32}
    (h : Arrives buf len (requestHdr gsmdMsgSms gsmdSmsRead id 4) 4 data)
    (hindex : intAt data 0 = index.toInt) :
    answer (usockRcvMessage textMode block gu client buf len) =
      LgsmCall.orders textMode gu id (.smsRead index) := by
  obtain rfl := h.whole
  have hint : intAt buf sizeofHdr = index.toInt := (h.int 0 le_rfl).trans hindex
  rw [rcv_sms h.header rfl rfl, usockRcvSms, h.header, hint]
  exact answer_sized

theorem smsDelete_answered {index delflg : Int32}
    (h : Arrives buf len (requestHdr gsmdMsgSms gsmdSmsDelete id 2) 2 data)
    (hindex : data 0 = intByte index.toInt) (hdelflg : data 1 = intByte delflg.toInt) :
    answer (usockRcvMessage textMode block gu client buf len) =
      LgsmCall.orders textMode gu id (.smsDelete index delflg) := by
  obtain rfl := h.whole
  have hfirst : buf sizeofHdr = intByte index.toInt := (h.bytes 0 (by decide)).trans hindex
  have hsecond : buf (sizeofHdr + 1) = intByte delflg.toInt :=
    (h.bytes 1 (by decide)).trans hdelflg
  rw [rcv_sms h.header rfl rfl, usockRcvSms, h.header, hfirst, hsecond]
  exact answer_sized

theorem smsSetStorage_answered {mem1 mem2 mem3 : UInt32}
    (h : Arrives buf len (requestHdr gsmdMsgSms gsmdSmsSetMsgStorage id 12) 12 data)
    (h1 : uintAt data 0 = mem1.toNat) (h2 : uintAt data 4 = mem2.toNat)
    (h3 : uintAt data 8 = mem3.toNat) :
    answer (usockRcvMessage textMode block gu client buf len) =
      LgsmCall.orders textMode gu id (.smsSetStorage mem1 mem2 mem3) := by
  obtain rfl := h.whole
  have h1' : uintAt buf sizeofHdr = mem1.toNat := (h.uint 0 (by decide)).trans h1
  have h2' : uintAt buf (sizeofHdr + 4) = mem2.toNat := (h.uint 4 (by decide)).trans h2
  have h3' : uintAt buf (sizeofHdr + 8) = mem3.toNat := (h.uint 8 (by decide)).trans h3
  rw [rcv_sms h.header rfl rfl, usockRcvSms, h.header, h1', h2', h3', LgsmCall.orders]
  cases ts0705MemtypeName[mem1.toNat]? with
  | none => rfl
  | some m1 =>
    cases ts0705MemtypeName[mem2.toNat]? with
    | none => rfl
    | some m2 =>
      cases ts0705MemtypeName[mem3.toNat]? with
      | none => rfl
      | some m3 =>
        refine answer_sized.trans ?_
        simp only [Option.bind_eq_bind, Option.bind_some, tell, quoted, List.append_assoc]

theorem smsSetSmsc_answered {number : Bytes}
    (h : Arrives buf len (requestHdr gsmdMsgSms gsmdSmsSetServiceCentre id 34) 34 data)
    (htype : data 0 = storedType number)
    (hnumber : data.slice 1 (cstr number).length = cstr number)
    (hend : data (1 + (cstr number).length) = 0) (hlen : (cstr number).length ≤ gsmdAddrMaxlen) :
    answer (usockRcvMessage textMode block gu client buf len) =
      LgsmCall.orders textMode gu id (.smsSetSmsc number) := by
  obtain rfl := h.whole
  have hmax : gsmdAddrMaxlen = 32 := rfl
  have hfirst : buf sizeofHdr = storedType number := (h.bytes 0 (by decide)).trans htype
  have htext : stringAt buf (sizeofHdr + 1) = cstr number := by
    rw [h.string 1 hend (by omega) (by decide), hnumber, cstr_of_no_nul cstr_ne_zero]
  rw [rcv_sms h.header rfl rfl, usockRcvSms, h.header, hfirst, htext]
  refine answer_sized.trans ?_
  simp only [LgsmCall.orders, tell, quoted, List.append_assoc]
  rfl

theorem pbSetStorage_answered {storage : Bytes}
    (h : Arrives buf len (requestHdr gsmdMsgPhonebook gsmdPhonebookSetStorage id 3) 3 data)
    (htext : data.slice 0 2 = strncpy storage 2) (hend : data 2 = 0) :
    answer (usockRcvMessage textMode block gu client buf len) =
      LgsmCall.orders textMode gu id (.pbSetStorage storage) := by
  obtain rfl := h.whole
  have htext' : stringAt buf sizeofHdr = (cstr storage).take 2 := by
    rw [← cstr_strncpy_cut, ← htext]
    exact h.string (n := 2) 0 hend (by decide) (by decide)
  rw [rcv_phonebook h.header rfl rfl, usockRcvPhonebook, h.header, htext']
  refine (answer_print (by decide)).trans ?_
  rfl

theorem pbFindEntry_answered {findtext : Memory}
    (h : Arrives buf len (requestHdr gsmdMsgPhonebook gsmdPhonebookFind id 15) 15 data)
    (htext : data.slice 0 14 = findtext.slice 0 14) (hend : data 14 = 0) :
    answer (usockRcvMessage textMode block gu client buf len) =
      LgsmCall.orders textMode gu id (.pbFindEntry findtext) := by
  obtain rfl := h.whole
  have htext' : stringAt buf sizeofHdr = field findtext gsmdPbTextMaxlen := by
    rw [field, gsmdPbTextMaxlen, ← htext]
    exact h.string (n := 14) 0 hend (by decide) (by decide)
  rw [rcv_phonebook h.header rfl rfl, usockRcvPhonebook, h.header, htext']
  exact answer_print (start_fits (by simp))

theorem pbReadEntry_answered {index : Int32}
    (h : Arrives buf len (requestHdr gsmdMsgPhonebook gsmdPhonebookRead id 4) 4 data)
    (hindex : intAt data 0 = index.toInt) :
    answer (usockRcvMessage textMode block gu client buf len) =
      LgsmCall.orders textMode gu id (.pbReadEntry index) := by
  obtain rfl := h.whole
  have hint : intAt buf sizeofHdr = index.toInt := (h.int 0 le_rfl).trans hindex
  rw [rcv_phonebook h.header rfl rfl, usockRcvPhonebook, h.header, hint]
  exact answer_print (start_fits (by simp))

theorem pbReadEntries_answered {index1 index2 : Int32}
    (h : Arrives buf len (requestHdr gsmdMsgPhonebook gsmdPhonebookReadrg id 2) 2 data)
    (h1 : data 0 = intByte index1.toInt) (h2 : data 1 = intByte index2.toInt) :
    answer (usockRcvMessage textMode block gu client buf len) =
      LgsmCall.orders textMode gu id (.pbReadEntries index1 index2) := by
  obtain rfl := h.whole
  have hfirst : buf sizeofHdr = intByte index1.toInt := (h.bytes 0 (by decide)).trans h1
  have hsecond : buf (sizeofHdr + 1) = intByte index2.toInt := (h.bytes 1 (by decide)).trans h2
  rw [rcv_phonebook h.header rfl rfl, usockRcvPhonebook, h.header, hfirst, hsecond]
  exact answer_print (start_fits (by simp))

theorem pbDelEntry_answered {index : Int32}
    (h : Arrives buf len (requestHdr gsmdMsgPhonebook gsmdPhonebookDelete id 4) 4 data)
    (hindex : intAt data 0 = index.toInt) :
    answer (usockRcvMessage textMode block gu client buf len) =
      LgsmCall.orders textMode gu id (.pbDelEntry index) := by
  obtain rfl := h.whole
  have hint : intAt buf sizeofHdr = index.toInt := (h.int 0 le_rfl).trans hindex
  rw [rcv_phonebook h.header rfl rfl, usockRcvPhonebook, h.header, hint]
  exact answer_print (start_fits (by simp))

theorem pbWriteEntry_answered {pb : LgsmPhonebook}
    (h : Arrives buf len (requestHdr gsmdMsgPhonebook gsmdPhonebookWrite id 62) 62 data)
    (hindex : data 0 = intByte pb.index.toInt) (hnumb : data.slice 1 44 = pb.numb.slice 0 44)
    (hnumbEnd : data 45 = 0) (htype : data 46 = intByte pb.type.toInt)
    (htext : data.slice 47 14 = pb.text.slice 0 14) (htextEnd : data 61 = 0) :
    answer (usockRcvMessage textMode block gu client buf len) =
      LgsmCall.orders textMode gu id (.pbWriteEntry pb) := by
  obtain rfl := h.whole
  have hindex' : buf sizeofHdr = intByte pb.index.toInt := (h.bytes 0 (by decide)).trans hindex
  have htype' : buf (sizeofHdr + pbType) = intByte pb.type.toInt :=
    (h.bytes 46 (by decide)).trans htype
  have hnumb' : stringAt buf (sizeofHdr + pbNumb) = field pb.numb gsmdPbNumbMaxlen := by
    rw [field, gsmdPbNumbMaxlen, ← hnumb]
    exact h.string 1 hnumbEnd (by decide) (by decide)
  have htext' : stringAt buf (sizeofHdr + pbText) = field pb.text gsmdPbTextMaxlen := by
    rw [field, gsmdPbTextMaxlen, ← htext]
    exact h.string 47 htextEnd (by decide) (by decide)
  rw [rcv_phonebook h.header rfl rfl, usockRcvPhonebook, h.header, hindex', htype', hnumb', htext']
  exact answer_print (start_fits (by simp))

/-- The two retrievals stand for the same orders. -/
theorem pbRetrieve_answered {num : Int32} {msgSubtype : UInt8}
    (hnone : msgSubtype = gsmdPhonebookRetrieveReadrg ∧ client.pbReadrgList = [] ∨
      msgSubtype = gsmdPhonebookRetrieveFind ∧ client.pbFindList = [])
    (h : Arrives buf len (requestHdr gsmdMsgPhonebook msgSubtype id 4) 4 data)
    (hnum : uintAt data 0 = (num.toInt % 2 ^ 32).toNat) :
    answer (usockRcvMessage textMode block gu client buf len) =
      LgsmCall.orders textMode gu id (.pbRetrieveReadrg num) := by
  obtain rfl := h.whole
  have huint : uintAt buf sizeofHdr = (num.toInt % 2 ^ 32).toNat :=
    (h.uint 0 (by decide)).trans hnum
  rw [rcv_phonebook h.header rfl rfl, usockRcvPhonebook, h.header, huint, LgsmCall.orders]
  rcases hnone with ⟨rfl, hnone⟩ | ⟨rfl, hnone⟩
  all_goals
    rw [hnone]
    by_cases hno : tallocRefuses (sizeofPhonebook * (num.toInt % 2 ^ 32).toNat % 2 ^ 32)
    · rw [if_pos hno, if_pos hno, if_pos hno]
      rfl
    · rw [if_neg hno, if_neg hno, if_neg hno]
      rfl

structure SameSubmit (textMode : Bool) (src src' : GsmdSmsSubmit) : Prop where
  type : src.addr.type = src'.addr.type
  number : ∀ i < numberSize, src.addr.number i = src'.addr.number i
  length : src.payload.length = src'.payload.length
  codingScheme : src.payload.codingScheme = src'.payload.codingScheme
  hasHeader : src.payload.hasHeader = src'.payload.hasHeader
  data : ∀ i < dataSize, src.payload.data i = src'.payload.data i
  askDs : src.askDs = src'.askDs

theorem SameSubmit.fits {src src' : GsmdSmsSubmit} (h : SameSubmit textMode src src')
    (hfit : FitsArrays textMode src') : FitsArrays textMode src := by
  obtain ⟨⟨i, hi, hz⟩, hdata⟩ := hfit
  refine ⟨⟨i, hi, (h.number i hi).trans hz⟩, ?_⟩
  rw [h.length, h.codingScheme]
  cases textMode with
  | false => exact hdata
  | true =>
    rcases hdata with hlen | ⟨j, hj, hz'⟩
    · exact .inl hlen
    · exact .inr ⟨j, hj, (h.data j hj).trans hz'⟩

theorem cstr_slice_nul {m : Memory} {i n : ℕ} (hz : m i = 0) (hn : i < n) :
    cstr (m.slice 0 n) = cstr (m.slice 0 i) := by
  obtain ⟨k, rfl⟩ : ∃ k, n = i + (k + 1) := ⟨n - i - 1, by omega⟩
  rw [Memory.slice_append, Memory.slice, Nat.zero_add, hz, cstr_append_nul]

theorem SameSubmit.header {src src' : GsmdSmsSubmit} (h : SameSubmit textMode src src') :
    src.addr.text = src'.addr.text ∧ submitHeader src = submitHeader src' := by
  have htext : src.addr.text = src'.addr.text := by
    rw [GsmdAddr.text, GsmdAddr.text, Memory.text, Memory.text,
      Memory.string?_congr (fun i _ hi => h.number i (by rwa [Nat.zero_add] at hi)),
      Memory.slice_congr (fun i _ hi => h.number i (by rwa [Nat.zero_add] at hi))]
  refine ⟨htext, ?_⟩
  rw [submitHeader, submitHeader, submitFlags, submitFlags, htext, h.askDs, h.hasHeader, h.type,
    h.codingScheme, h.length]

theorem SameSubmit.commandText {src src' : GsmdSmsSubmit} (h : SameSubmit textMode src src')
    (hfit : FitsArrays textMode src') {command : String} {args : Bytes} :
    commandText textMode command args src = commandText textMode command args src' := by
  obtain ⟨htext, hheader⟩ := h.header
  have hslice {n : ℕ} (hn : n ≤ dataSize) : src.payload.data.slice 0 n = src'.payload.data.slice 0 n :=
    Memory.slice_congr (fun i _ hi => h.data i (by omega))
  cases textMode with
  | false =>
    have hlen : smsDataBytelen src'.payload.codingScheme src'.payload.length ≤ dataSize := hfit.2
    simp only [GsmDaemon.commandText, smsPduMakeSmssubmit, hheader, h.codingScheme, h.length,
      hslice hlen]
    rfl
  | true =>
    have hcut : cstr (src.payload.data.slice 0 src'.payload.length.toNat) =
        cstr (src'.payload.data.slice 0 src'.payload.length.toNat) := by
      rcases hfit.2 with hlen | ⟨i, hi, hz⟩
      · rw [hslice hlen]
      · rcases Nat.lt_or_ge i src'.payload.length.toNat with hlt | hge
        · rw [cstr_slice_nul ((h.data i hi).trans hz) hlt, cstr_slice_nul hz hlt, hslice hi.le]
        · rw [hslice (hge.trans hi.le)]
    simp only [GsmDaemon.commandText, if_true, htext, h.length]
    exact congrArg _ hcut

theorem SameSubmit.trans {src src' src'' : GsmdSmsSubmit} (h : SameSubmit textMode src src')
    (h' : SameSubmit textMode src' src'') : SameSubmit textMode src src'' :=
  ⟨h.type.trans h'.type, fun i hi => (h.number i hi).trans (h'.number i hi),
    h.length.trans h'.length, h.codingScheme.trans h'.codingScheme,
    h.hasHeader.trans h'.hasHeader, fun i hi => (h.data i hi).trans (h'.data i hi),
    h.askDs.trans h'.askDs⟩

theorem Arrives.submit {size : ℕ} (h : Arrives buf len hdr size data) (k : ℕ)
    (hk : k + sizeofSmsSubmit ≤ size) :
    SameSubmit textMode (smsSubmitAt buf (sizeofHdr + k)) (smsSubmitAt data k) := by
  have hsize : sizeofSmsSubmit = 240 := rfl
  have hnumber : numberSize = 33 := rfl
  have hdata : dataSize = 165 := rfl
  have hbyte (j : ℕ) (hj : j < 240) : buf (sizeofHdr + k + j) = data (k + j) := by
    rw [Nat.add_assoc]
    exact h.bytes (k + j) (by omega)
  have hint (j : ℕ) (hj : j + 4 ≤ 240) : intAt buf (sizeofHdr + k + j) = intAt data (k + j) := by
    rw [Nat.add_assoc]
    exact h.int (k + j) (by omega)
  constructor
  · exact hbyte 0 (by decide)
  · intro i hi
    change buf (sizeofHdr + k + 1 + i) = data (k + 1 + i)
    have hindex : sizeofHdr + k + 1 + i = sizeofHdr + (k + 1 + i) := by omega
    rw [hindex]
    exact h.bytes (k + 1 + i) (by omega)
  · exact hbyte 34 (by decide)
  · exact hbyte 35 (by decide)
  · simp only [smsSubmitAt]
    exact hint 36 (by omega)
  · intro i hi
    change buf (sizeofHdr + k + 69 + i) = data (k + 69 + i)
    have hindex : sizeofHdr + k + 69 + i = sizeofHdr + (k + 69 + i) := by omega
    rw [hindex]
    exact h.bytes (k + 69 + i) (by omega)
  · simp only [smsSubmitAt]
    exact hint 236 (by omega)

theorem smsSend_answered {sms : LgsmMessage}
    (h : Arrives buf len (requestHdr gsmdMsgSms gsmdSmsSend id 240) 240 data)
    (hsms : SameSubmit textMode (smsSubmitAt data 0) sms.submit)
    (hfit : FitsArrays textMode sms.submit) :
    answer (usockRcvMessage textMode block gu client buf len) =
      LgsmCall.orders textMode gu id (.smsSend sms) := by
  obtain rfl := h.whole
  have hsame := (@Arrives.submit textMode _ _ _ _ _ h 0 le_rfl).trans hsms
  rw [Nat.add_zero] at hsame
  have htext := @smsCommandText_eq "AT+CMGS=" [] textMode buf sizeofHdr (by decide) (hsame.fits hfit)
  rw [hsame.commandText hfit] at htext
  rw [rcv_sms h.header rfl rfl, usockRcvSms, h.header, htext]
  exact answer_sized

theorem smsWrite_answered {stat : Int32} {sms : LgsmMessage}
    (h : Arrives buf len (requestHdr gsmdMsgSms gsmdSmsWrite id 241) 241 data)
    (hstat : data 0 = intByte stat.toInt)
    (hsms : SameSubmit textMode (smsSubmitAt data 1) sms.submit)
    (hfit : FitsArrays textMode sms.submit) :
    answer (usockRcvMessage textMode block gu client buf len) =
      LgsmCall.orders textMode gu id (.smsWrite stat sms) := by
  obtain rfl := h.whole
  have hsame := (@Arrives.submit textMode _ _ _ _ _ h 1 le_rfl).trans hsms
  have hstat' : buf sizeofHdr = intByte stat.toInt := (h.bytes 0 (by decide)).trans hstat
  have htext := @smsCommandText_eq "AT+CMGW="
    (ascii "," ++ printInt (intByte stat.toInt).toNat) textMode buf (sizeofHdr + 1) (by decide)
    (hsame.fits hfit)
  rw [hsame.commandText hfit] at htext
  rw [rcv_sms h.header rfl rfl, usockRcvSms, h.header, hstat', LgsmCall.orders]
  by_cases hrange : (intByte stat.toInt).toNat > 4
  · rw [if_pos hrange, if_pos hrange]
    rfl
  · rw [if_neg hrange, if_neg hrange, ← htext]
    exact answer_sized

end

end SystemTestSuite.Libgsmd
