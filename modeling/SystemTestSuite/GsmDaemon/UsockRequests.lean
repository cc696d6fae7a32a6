import SystemTestSuite.GsmDaemon.AtMachine
import SystemTestSuite.GsmDaemon.PhonebookCallbacks
import SystemTestSuite.GsmDaemon.SmsCallbacks

/-!
What the daemon does for a message of a client, `gsmd/usock.c` and `gsmd/sms_cb.c`. The message
stands at the front of `buf`, `len` is what `read` returned, `gu` the address of the client.
-/

namespace SystemTestSuite.GsmDaemon

open Library

structure Client where
  gu : GsmdUser
  pbReadrgList : List Memory
  pbFindList : List Memory

/-- `overruns` is a store behind the buffer of a command, `aborts` a `free` of what `talloc` gave. -/
inductive Refusal
  | einval
  | enosys
  | overruns
  | enomem
  | aborts
  deriving DecidableEq, Repr

/-- `on` is a new value of `dev_state.on`, `events` what the AT layer is given. -/
structure Handled where
  client : Client
  on : Option Bool := none
  events : List (Event UsockCb) := []

def rcvBufSize : ℕ := 1024

/-- A string of the message, cut at the end of the buffer when no NUL comes before. -/
def stringAt (buf : Memory) (off : ℕ) : Bytes :=
  (buf.string? off (rcvBufSize - off)).getD (buf.slice off (rcvBufSize - off))

def stringWithin (buf : Memory) (off n : ℕ) : Bytes := cstr (buf.slice off n)

def filled (text : Bytes) (rlen : ℕ) (cb : Option UsockCb) (ctx : ℕ) (id : UInt16) :
    Except Refusal (FilledAtcmd UsockCb) :=
  match atcmdFill text rlen cb ctx id.toNat with
  | some cmd => .ok cmd
  | none => .error .overruns

def FilledAtcmd.print (cmd : FilledAtcmd UsockCb) (text : Bytes) : FilledAtcmd UsockCb where
  ctx := cmd.ctx
  cb := cmd.cb
  id := cmd.id
  buf := text ++ 0 :: cmd.buf.drop (text.length + 1)
  terminated := by
    have hlast := cmd.terminated
    by_cases hlen : cmd.buf.length ≤ text.length + 1
    · simp [List.drop_eq_nil_of_le hlen]
    · have hdrop : (cmd.buf.drop (text.length + 1)).getLast? = some 0 := by
        rw [List.getLast?_drop, if_neg hlen, hlast]
      simp [List.getLast?_append, List.getLast?_cons, hdrop]

def submits (client : Client) (cmd : FilledAtcmd UsockCb) : Handled :=
  { client := client, events := [.submit cmd] }

def usockRcvPassthrough (gu : ℕ) (client : Client) (buf : Memory) : Except Refusal Handled := do
  let gph := hdrAt buf 0
  let cmd ← filled (stringAt buf sizeofHdr) gph.len.toNat (some .usockCmdCb) gu gph.id
  return submits client cmd

def usockRcvEvent (client : Client) (buf : Memory) (len : ℕ) : Except Refusal Handled :=
  if len < sizeofHdr + 4 then .error .einval
  else if (hdrAt buf 0).msgSubtype ≠ gsmdEvtSubscriptions then .error .einval
  else
    let mask := UInt32.ofNat (uintAt buf sizeofHdr)
    .ok { client := { client with gu := { client.gu with subscriptions := mask } } }

def usockRcvVoicecall (gu : ℕ) (client : Client) (buf : Memory) (len : ℕ) :
    Except Refusal Handled := do
  let gph := hdrAt buf 0
  if gph.msgSubtype = gsmdVoicecallDial then
    if len < sizeofHdr + 34 then throw .einval
    let number := stringAt (buf.store (sizeofHdr + 1 + gsmdAddrMaxlen) [0]) (sizeofHdr + 1)
    let cmd ← filled (ascii "ATD") (5 + number.length) (some .usockCmdCb) gu gph.id
    return submits client (cmd.print (ascii "ATD" ++ number ++ ascii ";"))
  else if gph.msgSubtype = gsmdVoicecallHangup then
    let cmd ← filled (ascii "ATH") 4 (some .usockCmdCb) gu gph.id
    return { client := client, events := [.cancel cmd] }
  else if gph.msgSubtype = gsmdVoicecallAnswer then
    let cmd ← filled (ascii "ATA") 4 (some .usockCmdCb) gu gph.id
    return submits client cmd
  else if gph.msgSubtype = gsmdVoicecallDtmf then
    let digits := (buf sizeofHdr).toNat
    if len < sizeofHdr + 1 then throw .einval
    if len < sizeofHdr + 1 + digits then throw .einval
    if digits ≠ 1 then throw .einval
    let cmd ← filled (ascii "AT+VTS=") (1 + 7 + digits * 2) (some .usockCmdCb) gu gph.id
    return submits client (cmd.print (ascii "AT+VTS=" ++ [buf (sizeofHdr + 1)] ++ ascii ";"))
  else throw .einval

def gsmdPinMaxlen : ℕ := 8
def gsmdPinSimPuk : ℕ := 2
def gsmdPinSimPuk2 : ℕ := 7

def usockRcvPin (gu : ℕ) (client : Client) (buf : Memory) (len : ℕ) : Except Refusal Handled := do
  let gph := hdrAt buf 0
  if gph.len.toNat < 22 ∨ len < 22 + sizeofHdr then throw .einval
  if gph.msgSubtype ≠ gsmdPinInput then throw .einval
  let type := uintAt buf sizeofHdr
  let pin := stringAt buf (sizeofHdr + 4)
  let newpin := stringAt buf (sizeofHdr + 4 + gsmdPinMaxlen + 1)
  let cmd ← filled (ascii "AT+CPIN=\"") (9 + gsmdPinMaxlen + 3 + gsmdPinMaxlen + 2)
    (some .pinCmdCb) gu 0
  let second := if type = gsmdPinSimPuk ∨ type = gsmdPinSimPuk2 then ascii "\",\"" ++ newpin else []
  return submits client (cmd.print (ascii "AT+CPIN=\"" ++ pin ++ second ++ ascii "\""))

def usockRcvPhone (gu : ℕ) (client : Client) (buf : Memory) : Except Refusal Handled := do
  let gph := hdrAt buf 0
  if gph.msgSubtype = gsmdPhonePowerup then
    let cmd ← filled (ascii "AT+CFUN=1") 10 (some .phonePowerupCb) gu 0
    return submits client cmd
  else if gph.msgSubtype = gsmdPhonePowerdown then
    let cmd ← filled (ascii "AT+CFUN=0") 10 (some .nullCmdCb) gu 0
    return { submits client cmd with on := some false }
  else throw .einval

def sizeofOperNumeric : ℕ := 6

def sized (text : Bytes) (cb : Option UsockCb) (ctx : ℕ) (id : UInt16) :
    Except Refusal (FilledAtcmd UsockCb) := filled text (text.length + 1) cb ctx id

def usockRcvNetwork (gu : ℕ) (client : Client) (buf : Memory) : Except Refusal Handled := do
  let gph := hdrAt buf 0
  let oper := stringWithin buf sizeofHdr sizeofOperNumeric
  if gph.msgSubtype = gsmdNetworkRegister then
    let text := if buf sizeofHdr ≠ 0 then ascii "AT+COPS=1,2,\"" ++ oper ++ ascii "\""
      else ascii "AT+COPS=0"
    return submits client (← sized text (some .nullCmdCb) gu 0)
  else if gph.msgSubtype = gsmdNetworkDeregister then
    return submits client (← sized (ascii "AT+COPS=2") (some .nullCmdCb) gu 0)
  else if gph.msgSubtype = gsmdNetworkVmailGet then
    return submits client (← sized (ascii "AT+CSVM?") (some .networkVmailCb) gu 0)
  else if gph.msgSubtype = gsmdNetworkVmailSet then
    return submits client (← sized (ascii "AT+CSVM=") (some .networkVmailCb) gu 0)
  else if gph.msgSubtype = gsmdNetworkSigqGet then
    return submits client (← sized (ascii "AT+CSQ") (some .networkSigqCb) gu 0)
  else if gph.msgSubtype = gsmdNetworkOperGet then
    let format ← sized (ascii "AT+COPS=3,0") (some .nullCmdCb) gu 0
    let cmd ← sized (ascii "AT+COPS?") (some .networkOperCb) gu 0
    return { client := client, events := [.submit format, .submit cmd] }
  else if gph.msgSubtype = gsmdNetworkOperList then
    return submits client (← sized (ascii "AT+COPS=?") (some .networkOpersCb) gu 0)
  else if gph.msgSubtype = gsmdNetworkPrefList then
    let format ← sized (ascii "AT+CPOL=,0") (some .nullCmdCb) gu 0
    let cmd ← sized (ascii "AT+CPOL?") (some .networkPrefOpersCb) gu 0
    return { client := client, events := [.submit format, .submit cmd] }
  else if gph.msgSubtype = gsmdNetworkPrefDel then
    let text := ascii "AT+CPOL=" ++ printInt (intAt buf sizeofHdr)
    return submits client (← sized text (some .nullCmdCb) gu 0)
  else if gph.msgSubtype = gsmdNetworkPrefAdd then
    let text := ascii "AT+CPOL=,2,\"" ++ oper ++ ascii "\""
    return submits client (← sized text (some .nullCmdCb) gu 0)
  else if gph.msgSubtype = gsmdNetworkPrefSpace then
    return submits client (← sized (ascii "AT+CPOL=?") (some .networkPrefNumCb) gu 0)
  else if gph.msgSubtype = gsmdNetworkGetNumber then
    return submits client (← sized (ascii "AT+CNUM") (some .networkOwnnumbersCb) gu 0)
  else throw .einval

def gsmdCmglStat : List Bytes :=
  [ascii "REC UNREAD", ascii "REC READ", ascii "STO UNSENT", ascii "STO SENT", ascii "ALL"]

def smsSubmitAt (m : Memory) (off : ℕ) : GsmdSmsSubmit where
  addr := ⟨m off, fun i => m (off + 1 + i)⟩
  payload := {
    length := m (off + 34)
    codingScheme := m (off + 35)
    hasHeader := intAt m (off + 36)
    isVoicemail := intAt m (off + 40)
    dcs := ⟨m (off + 44), m (off + 48), m (off + 52), m (off + 56), m (off + 60), m (off + 64),
      m (off + 68)⟩
    data := fun i => m (off + 69 + i) }
  askDs := intAt m (off + 236)

def sizeofSmsSubmit : ℕ := 240

/-- The short message behind `AT+CMGS` and `AT+CMGW`, up to the Ctrl-Z that ends it; `args` are the
arguments behind the length in PDU mode. -/
def smsCommandText (textMode : Bool) (command : String) (args : Bytes) (buf : Memory)
    (off : ℕ) : Bytes :=
  let sms := smsSubmitAt buf off
  (if textMode then
    ascii command ++ ascii "\"" ++ stringAt buf (off + 1) ++ ascii "\"\n" ++
      stringWithin buf (off + 69) sms.payload.length.toNat
  else
    ascii command ++ printInt ((smsPduMakeSmssubmit false sms).2 - 1) ++ args ++ ascii "\n" ++
      (smsPduMakeSmssubmit true sms).1) ++ [26]

def usockRcvSms (textMode : Bool) (gu : ℕ) (client : Client) (buf : Memory) (len : ℕ) :
    Except Refusal Handled := do
  let gph := hdrAt buf 0
  if gph.msgSubtype = gsmdSmsList then
    if len < sizeofHdr + 4 then throw .einval
    let stat := intAt buf sizeofHdr
    if stat < 0 ∨ stat > 4 then throw .einval
    let text := if textMode then
        ascii "AT+CMGL=\"" ++ gsmdCmglStat.getD stat.toNat [] ++ ascii "\""
      else ascii "AT+CMGL=" ++ printInt stat
    return submits client (← sized text (some .smsListCb) gu gph.id)
  else if gph.msgSubtype = gsmdSmsRead then
    if len < sizeofHdr + 4 then throw .einval
    let text := ascii "AT+CMGR=" ++ printInt (intAt buf sizeofHdr)
    return submits client (← sized text (some .smsReadCb) gu gph.id)
  else if gph.msgSubtype = gsmdSmsSend then
    if len < sizeofHdr + sizeofSmsSubmit then throw .einval
    let text := smsCommandText textMode "AT+CMGS=" [] buf sizeofHdr
    return submits client (← sized text (some .smsSendCb) gu gph.id)
  else if gph.msgSubtype = gsmdSmsWrite then
    if len < sizeofHdr + (1 + sizeofSmsSubmit) then throw .einval
    let stat := (buf sizeofHdr).toNat
    if stat > 4 then throw .einval
    let text := smsCommandText textMode "AT+CMGW=" (ascii "," ++ printInt stat) buf (sizeofHdr + 1)
    return submits client (← sized text (some .smsWriteCb) gu gph.id)
  else if gph.msgSubtype = gsmdSmsDelete then
    if len < sizeofHdr + 2 then throw .einval
    let text := ascii "AT+CMGD=" ++ printInt (buf sizeofHdr).toNat ++ ascii "," ++
      printInt (buf (sizeofHdr + 1)).toNat
    return submits client (← sized text (some .smsDeleteCb) gu gph.id)
  else if gph.msgSubtype = gsmdSmsGetMsgStorage then
    return submits client (← sized (ascii "AT+CPMS?") (some .usockCpmsCb) gu 0)
  else if gph.msgSubtype = gsmdSmsSetMsgStorage then
    if len < sizeofHdr + 12 then throw .einval
    match ts0705MemtypeName[uintAt buf sizeofHdr]?, ts0705MemtypeName[uintAt buf (sizeofHdr + 4)]?,
      ts0705MemtypeName[uintAt buf (sizeofHdr + 8)]? with
    | some m0, some m1, some m2 =>
      let text := ascii "AT+CPMS=\"" ++ m0 ++ ascii "\",\"" ++ m1 ++ ascii "\",\"" ++ m2 ++
        ascii "\""
      return submits client (← sized text none gu gph.id)
    | _, _, _ => throw .overruns
  else if gph.msgSubtype = gsmdSmsGetServiceCentre then
    return submits client (← sized (ascii "AT+CSCA?") (some .usockGetSmscCb) gu 0)
  else if gph.msgSubtype = gsmdSmsSetServiceCentre then
    if len < sizeofHdr + 34 then throw .einval
    let text := ascii "AT+CSCA=\"" ++ stringAt buf (sizeofHdr + 1) ++ ascii "\"," ++
      printInt (buf sizeofHdr).toNat
    return submits client (← sized text none gu gph.id)
  else throw .enosys

def usockRcvCb (client : Client) (buf : Memory) : Except Refusal Handled := do
  let gph := hdrAt buf 0
  if gph.msgSubtype = gsmdCbSubscribe then
    return submits client (← sized (ascii "AT+CSCB=1") none gsmdCtx 0)
  else if gph.msgSubtype = gsmdCbUnsubscribe then
    return submits client (← sized (ascii "AT+CSCB=0") none gsmdCtx 0)
  else throw .enosys

def sizeofUcmd : ℕ := 16

def maxTallocSize : ℕ := 0x10000000

/-- `talloc_size` returns NULL to `ucmd_alloc(len)`; the sizes have 32 bits. -/
def tallocRefuses (len : ℕ) : Prop := maxTallocSize ≤ (sizeofUcmd + len) % 2 ^ 32

instance (len : ℕ) : Decidable (tallocRefuses len) := inferInstanceAs (Decidable (_ ≤ _))

def pbReply (block : GsmdUcmd) (num : ℕ) (msgSubtype : UInt8) : GsmdUcmd :=
  gsmdUcmdFill block (sizeofPhonebook * num % 2 ^ 32) gsmdMsgPhonebook msgSubtype 0

/-- The loop over the list copies its first entry, takes it out and gives it to `free`, which ends
the daemon: the entry comes from `talloc`. -/
def pbRetrieve (block : GsmdUcmd) (num : ℕ) (msgSubtype : UInt8) (entries : List Memory) :
    Except Refusal GsmdUcmd :=
  match entries with
  | [] => .ok (pbReply block num msgSubtype)
  | _ :: _ => .error .aborts

def usockRcvPhonebook (block : GsmdUcmd) (gu : ℕ) (client : Client) (buf : Memory) (len : ℕ) :
    Except Refusal Handled := do
  let gph := hdrAt buf 0
  if gph.msgSubtype = gsmdPhonebookListStorage then
    return submits client (← sized (ascii "AT+CPBS=?") (some .phonebookListStorageCb) gu gph.id)
  else if gph.msgSubtype = gsmdPhonebookSetStorage then
    if len < sizeofHdr + 3 then throw .einval
    let cmd ← filled (ascii "AT+CPBS=\"") (1 + 9 + 2 + 1) (some .usockCmdCb) gu gph.id
    return submits client
      (cmd.print (ascii "AT+CPBS=\"" ++ stringAt buf sizeofHdr ++ ascii "\""))
  else if gph.msgSubtype = gsmdPhonebookFind then
    if len < sizeofHdr + 15 then throw .einval
    let text := ascii "AT+CPBF=\"" ++ stringAt buf sizeofHdr ++ ascii "\""
    let cmd ← filled (ascii "AT+CPBF=\"") (1 + text.length) (some .phonebookFindCb) gu gph.id
    return submits client (cmd.print text)
  else if gph.msgSubtype = gsmdPhonebookRead then
    if len < sizeofHdr + 4 then throw .einval
    let text := ascii "AT+CPBR=" ++ printInt (intAt buf sizeofHdr)
    let cmd ← filled (ascii "AT+CPBR=") (1 + text.length) (some .phonebookReadCb) gu gph.id
    return submits client (cmd.print text)
  else if gph.msgSubtype = gsmdPhonebookReadrg then
    if len < sizeofHdr + 2 then throw .einval
    let text := ascii "AT+CPBR=" ++ printInt (buf sizeofHdr).toNat ++ ascii "," ++
      printInt (buf (sizeofHdr + 1)).toNat
    let cmd ← filled (ascii "AT+CPBR=") (1 + text.length) (some .phonebookReadrgCb) gu gph.id
    return submits client (cmd.print text)
  else if gph.msgSubtype = gsmdPhonebookWrite then
    if len < sizeofHdr + sizeofPhonebook then throw .einval
    let text := ascii "AT+CPBW=" ++ printInt (buf sizeofHdr).toNat ++ ascii ",\"" ++
      stringAt buf (sizeofHdr + pbNumb) ++ ascii "\"," ++
      printInt (buf (sizeofHdr + pbType)).toNat ++ ascii ",\"" ++
      stringAt buf (sizeofHdr + pbText) ++ ascii "\""
    let cmd ← filled (ascii "AT+CPBW=") (1 + text.length) (some .phonebookWriteCb) gu gph.id
    return submits client (cmd.print text)
  else if gph.msgSubtype = gsmdPhonebookDelete then
    if len < sizeofHdr + 4 then throw .einval
    let text := ascii "AT+CPBW=" ++ printInt (intAt buf sizeofHdr)
    let cmd ← filled (ascii "AT+CPBW=") (1 + text.length) (some .phonebookDeleteCb) gu gph.id
    return submits client (cmd.print text)
  else if gph.msgSubtype = gsmdPhonebookGetSupport then
    return submits client (← sized (ascii "AT+CPBR=?") (some .phonebookGetSupportCb) gu gph.id)
  else if gph.msgSubtype = gsmdPhonebookRetrieveReadrg then
    if len < sizeofHdr + 4 then throw .einval
    if tallocRefuses (sizeofPhonebook * uintAt buf sizeofHdr % 2 ^ 32) then throw .enomem
    let ucmd ← pbRetrieve block (uintAt buf sizeofHdr) gph.msgSubtype client.pbReadrgList
    return { client := { client with gu := usockCmdEnqueue ucmd client.gu } }
  else if gph.msgSubtype = gsmdPhonebookRetrieveFind then
    if len < sizeofHdr + 4 then throw .einval
    if tallocRefuses (sizeofPhonebook * uintAt buf sizeofHdr % 2 ^ 32) then throw .enomem
    let ucmd ← pbRetrieve block (uintAt buf sizeofHdr) gph.msgSubtype client.pbFindList
    return { client := { client with gu := usockCmdEnqueue ucmd client.gu } }
  else if gph.msgSubtype = gsmdPhonebookGetImsi then
    return submits client (← sized (ascii "AT+CIMI") (some .getImsiCb) gu 0)
  else throw .einval

/-- `usock_rcv_pcmd` with the handler that it calls. -/
def usockRcvMessage (textMode : Bool) (block : GsmdUcmd) (gu : ℕ) (client : Client) (buf : Memory)
    (len : ℕ) : Except Refusal Handled :=
  match usockRcvPcmd buf with
  | none => .error .einval
  | some .rcvPassthrough => usockRcvPassthrough gu client buf
  | some .rcvEvent => usockRcvEvent client buf len
  | some .rcvVoicecall => usockRcvVoicecall gu client buf len
  | some .rcvPin => usockRcvPin gu client buf len
  | some .rcvPhone => usockRcvPhone gu client buf
  | some .rcvNetwork => usockRcvNetwork gu client buf
  | some .rcvSms => usockRcvSms textMode gu client buf len
  | some .rcvCb => usockRcvCb client buf
  | some .rcvPhonebook => usockRcvPhonebook block gu client buf len

def runCb {κ : Type} (cb : UsockCb) (u : Unset) (cmd : GsmdAtcmd κ) (resp : Bytes) :
    Option CbOutcome :=
  match cb with
  | .usockCmdCb => usockCmdCb u cmd resp
  | .nullCmdCb => nullCmdCb
  | .pinCmdCb => pinCmdCb
  | .phonePowerupCb => phonePowerupCb cmd
  | .networkVmailCb => networkVmailCb u cmd resp
  | .networkSigqCb => networkSigqCb u resp
  | .networkOperCb => networkOperCb u resp
  | .networkOpersCb => networkOpersCb u resp
  | .networkPrefOpersCb => networkPrefOpersCb u cmd resp
  | .networkPrefNumCb => networkPrefNumCb u cmd resp
  | .networkOwnnumbersCb => networkOwnnumbersCb u cmd resp
  | .smsListCb => smsListCb u cmd resp
  | .smsReadCb => smsReadCb u cmd resp
  | .smsSendCb => smsSendCb u cmd resp
  | .smsWriteCb => smsWriteCb u cmd resp
  | .smsDeleteCb => smsDeleteCb u cmd
  | .usockCpmsCb => usockCpmsCb u cmd resp
  | .usockGetSmscCb => usockGetSmscCb u cmd resp
  | .phonebookFindCb => phonebookFindCb u resp
  | .phonebookReadCb => phonebookReadCb u resp
  | .phonebookReadrgCb => phonebookReadrgCb u resp
  | .phonebookWriteCb => phonebookWriteCb u resp
  | .phonebookDeleteCb => phonebookDeleteCb u resp
  | .phonebookGetSupportCb => phonebookGetSupportCb u resp
  | .phonebookListStorageCb => phonebookListStorageCb u resp
  | .getImsiCb => getImsiCb u resp

def CbOutcome.client (o : CbOutcome) (client : Client) : Client where
  gu := match o.reply with
    | some ucmd => usockCmdEnqueue ucmd client.gu
    | none => client.gu
  pbReadrgList := client.pbReadrgList ++ o.ranged
  pbFindList := client.pbFindList ++ o.found

end SystemTestSuite.GsmDaemon
