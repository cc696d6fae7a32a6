import SystemTestSuite.GsmDaemon.ExtResponse
import SystemTestSuite.GsmDaemon.SmsUnsolicited
import SystemTestSuite.GsmDaemon.UnsolicitTable

/-!
The parsers of unsolicited messages, `gsmd/unsolicited.c`, `gsmd/vendor_ti.c` and `gsmd/sms_cb.c`. A
line is its text, with the NUL behind it the last byte that may be read.
-/

namespace SystemTestSuite.GsmDaemon

open Library

def gsmdEvtInCall : ℕ := 1
def gsmdEvtInClip : ℕ := 4
def gsmdEvtNetreg : ℕ := 5
def gsmdEvtSignal : ℕ := 6
def gsmdEvtOutStatus : ℕ := 8
def gsmdEvtOutColp : ℕ := 9
def gsmdEvtCallWait : ℕ := 10
def gsmdEvtTimezone : ℕ := 11
def gsmdEvtCipher : ℕ := 13

def gsmdCallUnspec : ℤ := 1
def gsmdCallVoice : ℤ := 2
def gsmdCallFax : ℤ := 4
def gsmdCallDataSync : ℤ := 5
def gsmdCallDataRelAsync : ℤ := 6
def gsmdCallDataRelSync : ℤ := 7

def gsmdNetregRegHome : ℤ := 1
def gsmdNetregRegRoaming : ℤ := 5

def gsmdCiphindDisabledSim : UInt32 := 2
def gsmdCiphindActive : UInt32 := 4

/-- `sizeof(struct gsmd_evt_auxdata)`, and the offsets in it. -/
def sizeofAuxdata : ℕ := 40
def auxNumber : ℕ := 1
def auxLac : ℕ := 4
def auxCi : ℕ := 6
def auxMemtype : ℕ := 4
def auxIndex : ℕ := 8
def auxBits : ℕ := 38
def auxGsm : ℕ := 2
def auxGprs : ℕ := 4

def sizeofAddr : ℕ := 34

def stringIn (text : Bytes) (off : ℕ) : Option Bytes :=
  if off ≤ text.length then some (text.drop off) else none

def ParamPtr.string (text : Bytes) : ParamPtr → Option Bytes
  | into off => stringIn text off
  | _ => none

/-- `DEBUGP` with `%s`: NULL prints as `(null)`. -/
def ParamPtr.debugp (text : Bytes) : ParamPtr → Option Unit
  | null => some ()
  | param => (param.string text).map fun _ => ()

/-- What a parser does: it returns `rc`, or what the function returns that it calls last, sends an
event, or sets `dev_state.ciph_ind.flags`. -/
structure UnsolicitedOutcome where
  rc : Option ℤ := none
  event : Option (ℕ × GsmdUcmd) := none
  flags : Option UInt32 := none
  smsCbNetworkInit : Bool := false
  inlined : Option InlinedEvent := none
  opname : Option (Bytes × Bytes) := none

/-- `none` is a read of the line through NULL or behind its NUL, `some none` an access outside
another array or a `free` of what `malloc` has not given. -/
abbrev Handling := Option (Option UnsolicitedOutcome)

def returns (rc : ℤ) : Handling := some (some { rc := some rc })

def sends (evt : ℕ) (ucmd : GsmdUcmd) : Handling := some (some { event := some (evt, ucmd) })

def usockBuildEvent (u : Unset) (evt len : ℕ) : GsmdUcmd :=
  { u.ucmd with
    hdr := ⟨gsmdProtoVersion, gsmdMsgEvent, UInt8.ofNat evt, u.ucmd.hdr.pad, u.ucmd.hdr.id,
      UInt16.ofNat len⟩ }

def auxEvent (u : Unset) (evt : ℕ) : GsmdUcmd := usockBuildEvent u evt sizeofAuxdata

def ringParse (u : Unset) : Handling :=
  sends gsmdEvtInCall ((auxEvent u gsmdEvtInCall).store 0 (intBytes gsmdCallUnspec))

def cringParse (u : Unset) (text : Bytes) (param : ParamPtr) : Handling := do
  let p ← param.string text
  let ucmd := auxEvent u gsmdEvtInCall
  let call (type : ℤ) : Handling := sends gsmdEvtInCall (ucmd.store 0 (intBytes type))
  if p = ascii "VOICE" then call gsmdCallVoice
  else if p = ascii "SYNC" then call gsmdCallDataSync
  else if p = ascii "REL ASYNC" then call gsmdCallDataRelAsync
  else if p = ascii "REL SYNC" then call gsmdCallDataRelSync
  else if p = ascii "FAX" then call gsmdCallFax
  else if strncmp p (ascii "GPRS ") 5 then returns 0
  else sends gsmdEvtInCall ucmd

def netreg (ucmd : GsmdUcmd) (state : ℤ) : Handling :=
  some (some
    { event := some (gsmdEvtNetreg, ucmd)
      smsCbNetworkInit := state = gsmdNetregRegHome ∨ state = gsmdNetregRegRoaming })

def wordOf (n : ℕ) : Bytes := wordBytes (UInt16.ofNat n)

def cregParse (u : Unset) (text : Bytes) (param : ParamPtr) : Handling := do
  let p ← param.string text
  let state := atoi p
  let ucmd := (auxEvent u gsmdEvtNetreg).store 0 (intBytes state)
  match strchr p 44 with
  | none => netreg ((ucmd.store auxLac (wordOf 0)).store auxCi (wordOf 0)) state
  | some comma =>
    let lac ← stringIn p (comma + 2)
    let rest ← stringIn p (comma + 1)
    match strchr rest 44 with
    | none => returns (-EINVAL)
    | some next =>
      let ci ← stringIn rest (next + 2)
      netreg ((ucmd.store auxLac (wordOf (strtoulHex lac))).store auxCi (wordOf (strtoulHex ci))) state

/-- `strtok` runs on `buf`, the whole line. -/
def ccwaParse (u : Unset) (text : Bytes) : Handling :=
  let ucmd := { usockBuildEvent u gsmdEvtCallWait sizeofAddr with
    buf := u.ucmd.buf.fill 0 sizeofAddr 0 }
  match strtokAll 44 text with
  | number :: type :: _ =>
    sends gsmdEvtCallWait ((ucmd.store auxNumber (strncpy number gsmdAddrMaxlen)).store 0
      [intByte (atoi type)])
  | _ => returns (-EINVAL)

/-- `clip_parse` and `colp_parse`; the type of the address is not set. -/
def addrParse (evt : ℕ) (u : Unset) (text : Bytes) (param : ParamPtr) : Handling := do
  let p ← param.string text
  match strchr p 44 with
  | none => returns (-EINVAL)
  | some comma =>
    if comma > gsmdAddrMaxlen then returns (-EINVAL)
    else sends evt ((auxEvent u evt).store auxNumber (p.take comma ++ [0]))

def clipParse : Unset → Bytes → ParamPtr → Handling := addrParse gsmdEvtInClip

def colpParse : Unset → Bytes → ParamPtr → Handling := addrParse gsmdEvtOutColp

def ctzvParse (u : Unset) (text : Bytes) (param : ParamPtr) : Handling := do
  let p ← param.string text
  let tz := atoi p
  if tz < -48 ∨ tz > 48 then returns (-EINVAL)
  else sends gsmdEvtTimezone ((auxEvent u gsmdEvtTimezone).store 0 [intByte tz])

/-- `extrsp_parse` looks for NULL itself. -/
def copnParse (text : Bytes) : ParamPtr → Handling
  | .null => returns (-ENOMEM)
  | param => do
    let p ← param.string text
    match extrspParse p with
    | none => some none
    | some none => returns (-ENOMEM)
    | some (some er) =>
      match er.tokens with
      | [.string code, .string name] => some (some { opname := some (code, name) })
      | _ => returns 0

/-- `strtok` goes on with an earlier string when `param` is NULL. -/
def csqParse (u : Unset) (text : Bytes) (param : ParamPtr) : Handling := do
  param.debugp text
  let p ← param.string text
  match strtokAll 44 p with
  | rssi :: ber :: _ =>
    some (some
      { rc := some 0
        event := some (gsmdEvtSignal,
          (auxEvent u gsmdEvtSignal).store 0 [intByte (atoi rssi), intByte (atoi ber)]) })
  -- `free(ucmd)`, which `talloc` gave
  | _ => some none

def ciphIndication (flags : UInt32) (z : ℤ) : UInt32 :=
  if z = 0 then flags &&& ~~~gsmdCiphindActive
  else if z = 1 then flags ||| gsmdCiphindActive
  else if z = 2 then flags ||| gsmdCiphindDisabledSim
  else flags

def cpriParse (u : Unset) (flags : UInt32) (text : Bytes) : Handling :=
  match strtokAll 44 text with
  | [] => returns (- EIO)
  | [tok1] => some (some { rc := some 0, flags := some (ciphIndication flags (atoi tok1)) })
  | tok1 :: tok2 :: _ =>
    some (some
      { rc := some 0
        event := some (gsmdEvtCipher,
          ((auxEvent u gsmdEvtCipher).store auxGsm (intWord (atoi tok1))).store auxGsm
            (intWord (atoi tok2))) })

def tiCtzvParse : Handling := returns 0

def callBits (old : UInt8) (ibt tch : Bool) (dir : Option UInt8) : UInt8 :=
  let bits := (old &&& ~~~(3 : UInt8)) ||| (if ibt then 1 else 0) ||| (if tch then 2 else 0)
  match dir with
  | some d => (bits &&& ~~~(12 : UInt8)) ||| (d <<< 2)
  | none => bits

def cpiParse (u : Unset) (text : Bytes) (param : ParamPtr) : Handling := do
  param.debugp text
  match strtokAll 44 text with
  | _ :: prog :: ibt :: tch :: rest =>
    let ucmd := (auxEvent u gsmdEvtOutStatus).store 0 (intBytes (atoi prog))
    let dir := (rest.head?.bind List.head?).bind fun c =>
      if 48 ≤ c ∧ c ≤ 51 then some (c - 48) else none
    let bits := callBits (ucmd.buf auxBits) (ibt.head? = some 49) (tch.head? = some 49) dir
    some (some { rc := some 0, event := some (gsmdEvtOutStatus, ucmd.store auxBits [bits]) })
  | _ => returns (- EIO)

def memstrFormat : List Directive :=
  [.lit 34, .set (some 2) true (fun b => 65 ≤ b ∧ b ≤ 90), .lit 34, .lit 44, .int true]

def memIndexParse (evt : ℕ) (u : Unset) (text : Bytes) (param : ParamPtr) : Handling := do
  let p ← param.string text
  match sscanf p memstrFormat with
  | (_, [.text memstr, .int index]) =>
    sends evt ((((auxEvent u evt).store auxIndex (intBytes index)).store 0 (intBytes 0)).store
      auxMemtype [UInt8.ofNat (parseMemtype memstr)])
  | _ => returns (-EINVAL)

def cmtiParse : Unset → Bytes → ParamPtr → Handling := memIndexParse gsmdEvtInSms

def cbmiParse : Unset → Bytes → ParamPtr → Handling := memIndexParse gsmdEvtInCbm

def cdsiParse : Unset → Bytes → ParamPtr → Handling := memIndexParse gsmdEvtInDs

def pduHandling (parse : Unset → Option Bytes → Option (Except ℤ InlinedEvent)) (u : Unset)
    (text : Bytes) (param : ParamPtr) : Handling := do
  let p ← param.string text
  match parse u (some p) with
  | none => some none
  | some (.error rc) => returns rc
  | some (.ok event) => some (some { inlined := some event })

inductive UnsolicitedHandler
  | ringParse
  | cringParse
  | cregParse
  | ccwaParse
  | cusdParse
  | cccmParse
  | cgevParse
  | cgregParse
  | clipParse
  | colpParse
  | ctzvParse
  | copnParse
  | csqParse
  | cpriParse
  | cpiParse
  | tiCtzvParse
  | cmtiParse
  | cmtParse
  | cbmiParse
  | cbmParse
  | cdsiParse
  | cdsParse
  deriving DecidableEq

def gsm0707Unsolicit : List (Bytes × UnsolicitedHandler) :=
  [(ascii "RING", .ringParse), (ascii "+CRING", .cringParse), (ascii "+CREG", .cregParse),
    (ascii "+CCWA", .ccwaParse), (ascii "+CUSD", .cusdParse), (ascii "+CCCM", .cccmParse),
    (ascii "+CGEV", .cgevParse), (ascii "+CGREG", .cgregParse), (ascii "+CLIP", .clipParse),
    (ascii "+COLP", .colpParse), (ascii "+CTZV", .ctzvParse), (ascii "+COPN", .copnParse)]

def gsm0705Unsolicit : List (Bytes × UnsolicitedHandler) :=
  [(ascii "+CMTI", .cmtiParse), (ascii "+CMT", .cmtParse), (ascii "+CBMI", .cbmiParse),
    (ascii "+CBM", .cbmParse), (ascii "+CDSI", .cdsiParse), (ascii "+CDS", .cdsParse)]

def ticalypsoUnsolicit : List (Bytes × UnsolicitedHandler) :=
  [(ascii "%CSQ", .csqParse), (ascii "%CPRI", .cpriParse), (ascii "%CPI", .cpiParse),
    (ascii "%CTZV", .tiCtzvParse)]

def unsolicitTables : List (Bytes × UnsolicitedHandler) :=
  gsm0705Unsolicit ++ ticalypsoUnsolicit ++ gsm0707Unsolicit

def UnsolicitedHandler.run (u : Unset) (flags : UInt32) (text : Bytes) (param : ParamPtr) :
    UnsolicitedHandler → Handling
  | ringParse => GsmDaemon.ringParse u
  | cringParse => GsmDaemon.cringParse u text param
  | cregParse => GsmDaemon.cregParse u text param
  | ccwaParse => GsmDaemon.ccwaParse u text
  | cusdParse | cccmParse | cgevParse | cgregParse => returns 0
  | clipParse => GsmDaemon.clipParse u text param
  | colpParse => GsmDaemon.colpParse u text param
  | ctzvParse => GsmDaemon.ctzvParse u text param
  | copnParse => GsmDaemon.copnParse text param
  | csqParse => GsmDaemon.csqParse u text param
  | cpriParse => GsmDaemon.cpriParse u flags text
  | cpiParse => GsmDaemon.cpiParse u text param
  | tiCtzvParse => GsmDaemon.tiCtzvParse
  | cmtiParse => GsmDaemon.cmtiParse u text param
  | cmtParse => pduHandling GsmDaemon.cmtParse u text param
  | cbmiParse => GsmDaemon.cbmiParse u text param
  | cbmParse => pduHandling GsmDaemon.cbmParse u text param
  | cdsiParse => GsmDaemon.cdsiParse u text param
  | cdsParse => pduHandling GsmDaemon.cdsParse u text param

def unsolicitedHandler (buf : Bytes) : Option UnsolicitedHandler :=
  (unsolicitTables.find? fun i => strncmp (cstr buf) i.1 i.1.length).map Prod.snd

def unsolicitedHandling (u : Unset) (flags : UInt32) (buf : Bytes) (len : ℕ) : Handling :=
  match unsolicitedHandler buf with
  | none => returns (-ENOENT)
  | some handler => handler.run u flags (cstr buf) (paramPtr buf len)

end SystemTestSuite.GsmDaemon
