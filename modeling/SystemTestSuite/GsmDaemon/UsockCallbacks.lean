import SystemTestSuite.GsmDaemon.MlParse
import SystemTestSuite.GsmDaemon.SmsPdu
import SystemTestSuite.GsmDaemon.Usock
import SystemTestSuite.Library.Scanf

/-!
The callbacks of the commands that clients ask for, `gsmd/usock.c` and `gsmd/sms_cb.c`. A `resp`
is all bytes from the pointer on, so that what stands behind the NUL of the text is there to be
read. `none` is a NULL pointer followed or a read outside an array.
-/

namespace SystemTestSuite.GsmDaemon

open Library

def EIO : ℤ := 5

inductive UsockCb
  | usockCmdCb
  | nullCmdCb
  | pinCmdCb
  | phonePowerupCb
  | networkVmailCb
  | networkSigqCb
  | networkOperCb
  | networkOpersCb
  | networkPrefOpersCb
  | networkPrefNumCb
  | networkOwnnumbersCb
  | smsListCb
  | smsReadCb
  | smsSendCb
  | smsWriteCb
  | smsDeleteCb
  | usockCpmsCb
  | usockGetSmscCb
  | phonebookFindCb
  | phonebookReadCb
  | phonebookReadrgCb
  | phonebookWriteCb
  | phonebookDeleteCb
  | phonebookGetSupportCb
  | phonebookListStorageCb
  | getImsiCb
  deriving DecidableEq, Repr

/-- What stands in memory that nothing has been written to: a block of `ucmd_alloc`, the blocks of
`talloc`, and the local variables. -/
structure Unset where
  ucmd : GsmdUcmd
  entries : ℕ → Memory
  int : ℕ
  array : Memory
  msg : GsmdSmsList

def zeroed : Unset where
  ucmd := ⟨0, ⟨0, 0, 0, 0, 0, 0⟩, Memory.zero⟩
  entries _ := Memory.zero
  int := 0
  array := Memory.zero
  msg := blankSmsList

/-- `found` and `ranged` go to `pb_find_list` and `pb_readrg_list`; `on` sets `dev_state.on`. -/
structure CbOutcome where
  rc : ℤ := 0
  reply : Option GsmdUcmd := none
  found : List Memory := []
  ranged : List Memory := []
  on : Bool := false

def gsmdUcmdFill (block : GsmdUcmd) (len : ℕ) (msgType msgSubtype : UInt8) (id : UInt16) :
    GsmdUcmd :=
  { block with
    hdr := ⟨gsmdProtoVersion, msgType, msgSubtype, block.hdr.pad, id, UInt16.ofNat len⟩ }

def GsmdUcmd.store (ucmd : GsmdUcmd) (off : ℕ) (bs : Bytes) : GsmdUcmd :=
  { ucmd with buf := ucmd.buf.store off bs }

def GsmdAtcmd.msgId {κ : Type} (cmd : GsmdAtcmd κ) : UInt16 := UInt16.ofNat cmd.id

def intByte (z : ℤ) : UInt8 := UInt8.ofNat (z % 256).toNat

def intWord (z : ℤ) : Bytes := wordBytes (UInt16.ofNat (z % 2 ^ 16).toNat)

variable {κ : Type}

def usockCmdCb (u : Unset) (cmd : GsmdAtcmd κ) (resp : Bytes) : Option CbOutcome :=
  let rlen := (cstr resp).length + 1
  let ucmd := gsmdUcmdFill u.ucmd rlen gsmdMsgPassthrough gsmdPassthroughResp cmd.msgId
  some { reply := some (ucmd.store 0 ((cstr resp ++ [0]).take ucmd.hdr.len.toNat)) }

def nullCmdCb : Option CbOutcome := some {}

def pinCmdCb : Option CbOutcome := some {}

def phonePowerupCb (cmd : GsmdAtcmd κ) : Option CbOutcome := some { on := cmd.ret = 0 }

def sizeofVoicemail : ℕ := 35

/-- The three fields go to where `vmail` points, which is not set: the reply keeps what its block
held. -/
def networkVmailCb (u : Unset) (cmd : GsmdAtcmd κ) (resp : Bytes) : Option CbOutcome :=
  let ucmd := gsmdUcmdFill u.ucmd sizeofVoicemail gsmdMsgNetwork gsmdNetworkVmailGet cmd.msgId
  if cmd.buf[7]? = some 61 then some {}
  else if (strtokAll 44 resp).length < 3 then some { rc := -EINVAL }
  else some { reply := some ucmd }

def networkSigqCb (u : Unset) (resp : Bytes) : Option CbOutcome :=
  let ucmd := gsmdUcmdFill u.ucmd 2 gsmdMsgNetwork gsmdNetworkSigqGet 0
  let rssi := intByte (atoi (resp.drop 6))
  match strchr resp 44 with
  | none => some { rc := - EIO }
  | some comma =>
    some { reply := some (ucmd.store 0 [rssi, intByte (atoi (resp.drop (comma + 1)))]) }

def copsFormat : List Directive :=
  ordinary "+COPS: " ++ [.int false, .lit 44, .int true, .lit 44, .lit 34, .count]

def networkOperCb (u : Unset) (resp : Bytes) : Option CbOutcome :=
  let scan := sscanf resp copsFormat
  let name : Option Bytes :=
    if scan.1 ≤ 0 then some []
    else
      let s := match scan.2 with
        | [.int _, .count s] => s
        | _ => u.int
      let opname := resp.drop s
      (strchr opname 34).map opname.take
  match name with
  | none => some { rc := -EINVAL }
  | some name =>
    let ucmd := gsmdUcmdFill u.ucmd (name.length + 1) gsmdMsgNetwork gsmdNetworkOperGet 0
    some { reply := some (ucmd.store 0 (name ++ [0])) }

def notQuote (b : UInt8) : Bool := b ≠ 34

/-- `"(%i,\"%16[^\"]\",\"%8[^\"]\",\"%6[0-9]\")%n"`, without the widths where nothing is stored. -/
def operFormat (out : Bool) : List Directive :=
  let width (n : ℕ) := if out then some n else none
  [.lit 40, .int out, .lit 44, .lit 34, .set (width 16) out notQuote, .lit 34, .lit 44, .lit 34,
    .set (width 8) out notQuote, .lit 34, .lit 44, .lit 34, .set (width 6) out isDigit, .lit 34,
    .lit 41, .count]

def sizeofMsgOper : ℕ := 40

structure OperLocals where
  n : ℕ
  opnameLongalpha : Memory
  opnameShortalpha : Memory
  opnameNum : Memory

def operBytes (stat : ℤ) (l : OperLocals) : Bytes × Bytes :=
  (intBytes stat, l.opnameLongalpha.slice 0 16 ++ l.opnameShortalpha.slice 0 8 ++
    l.opnameNum.slice 0 6)

def operElement (out : Bool) (l : OperLocals) (str : Bytes) (len : ℕ) (buf : Memory) :
    Bool × OperLocals × Memory :=
  let scan := sscanf str (operFormat out)
  let buf := if out then buf.store (sizeofMsgOper * len + 4) (intBytes 0) else buf
  if scan.1 < (if out then 4 else 0) then (false, l, buf)
  else
    match scan.2 with
    | .int stat :: .text long :: .text short :: .text num :: rest =>
      let l : OperLocals := {
        n := match rest with
          | [.count n] => n
          | _ => l.n
        opnameLongalpha := l.opnameLongalpha.store 0 (long ++ [0])
        opnameShortalpha := l.opnameShortalpha.store 0 (short ++ [0])
        opnameNum := l.opnameNum.store 0 (num ++ [0]) }
      (true, l, (buf.store (sizeofMsgOper * len) (operBytes stat l).1).store
        (sizeofMsgOper * len + 8) (operBytes stat l).2)
    | [.count n] => (true, { l with n := n }, buf)
    | _ => (true, l, buf)

def skipComma (str : Bytes) (n : ℕ) : ℕ := if str[n]? = some 44 then n + 1 else n

/-- The number of elements, and what is written. -/
def networkOpersLoop (out : Bool) (l : OperLocals) (str : Bytes) (len : ℕ) (buf : Memory) :
    ℕ × Memory :=
  if _h : str.head? = some 40 then
    match operElement out l str len buf with
    | (false, _, buf) => (len, buf)
    | (true, l, buf) =>
      if _hn : l.n < 10 ∨ str[l.n - 1]? ≠ some 41 then (len, buf)
      else
        networkOpersLoop out { l with n := skipComma str l.n } (str.drop (skipComma str l.n))
          (len + 1) buf
  else (len, buf)
termination_by str.length
decreasing_by
  have hstr : str ≠ [] := by
    rintro rfl
    simp at _h
  have hlen := List.length_pos_of_ne_nil hstr
  have hpos : 0 < skipComma str l.n := by
    rw [skipComma]
    split_ifs <;> omega
  rw [List.length_drop]
  omega

def networkOpersParse (out : Bool) (u : Unset) (str : Bytes) (buf : Memory) : ℕ × Memory :=
  let r :=
    if ¬ strncmp str (ascii "+COPS: ") 7 then (0, buf)
    else networkOpersLoop out ⟨u.int, u.array, u.array, u.array⟩ (str.drop 7) 0 buf
  (r.1, if out then r.2.store (sizeofMsgOper * r.1 + 4) (intBytes 1) else r.2)

def networkOpersCb (u : Unset) (resp : Bytes) : Option CbOutcome :=
  let len := (networkOpersParse false u resp u.ucmd.buf).1
  let ucmd := gsmdUcmdFill u.ucmd (sizeofMsgOper * (len + 1)) gsmdMsgNetwork gsmdNetworkOperList 0
  some { reply := some { ucmd with buf := (networkOpersParse true u resp ucmd.buf).2 } }

def isLast (cmd : GsmdAtcmd κ) : Bytes := intBytes (if cmd.ret = 0 then 1 else 0)

def networkPrefOpersCb (u : Unset) (cmd : GsmdAtcmd κ) (resp : Bytes) : Option CbOutcome :=
  if cmd.ret ≠ 0 ∧ cmd.ret ≠ -255 then some {}
  else
    match sscanf resp (ordinary "+CPOL: " ++ [.int true] ++ ordinary ",0,\"" ++
      [.set (some 16) true notQuote, .lit 34]) with
    | (_, [.int index, .text opname]) =>
      let ucmd := gsmdUcmdFill u.ucmd 24 gsmdMsgNetwork gsmdNetworkPrefList cmd.msgId
      some { reply := some (ucmd.store 0 (intBytes index ++ isLast cmd ++
        (u.array.store 0 (opname ++ [0])).slice 0 16)) }
    | _ => some { rc := -EINVAL }

def networkPrefNumCb (u : Unset) (cmd : GsmdAtcmd κ) (resp : Bytes) : Option CbOutcome :=
  if cmd.ret ≠ 0 then some {}
  else
    match sscanf resp (ordinary "+CPOL: (" ++ [.int true, .lit 45, .int true, .lit 41]) with
    | (_, [.int minIndex, .int maxIndex]) =>
      let ucmd := gsmdUcmdFill u.ucmd 4 gsmdMsgNetwork gsmdNetworkPrefSpace cmd.msgId
      some { reply := some (ucmd.store 0 (intBytes (maxIndex - minIndex + 1))) }
    | _ => some { rc := -EINVAL }

def sizeofOwnNumber : ℕ := 44

/-- The name stands at offset 42, the address at 8 and the service at 4. -/
def networkOwnnumbersCb (u : Unset) (cmd : GsmdAtcmd κ) (resp : Bytes) : Option CbOutcome :=
  if cmd.ret ≠ 0 ∧ cmd.ret ≠ -255 then some {}
  else
    let len :=
      match sscanf resp (ordinary "+CNUM: \"" ++ [.set none false notQuote, .lit 34, .char, .count])
      with
      | (_, [.char _, .count len]) => len - (ascii "+CNUM: \"\",").length
      | _ => 0
    let ucmd := gsmdUcmdFill u.ucmd (sizeofOwnNumber + len + 1) gsmdMsgNetwork
      gsmdNetworkGetNumber cmd.msgId
    let number : List Directive := [.lit 34, .set (some 32) true notQuote, .lit 34, .lit 44,
      .int true, .lit 44, .int false, .lit 44, .int true, .lit 44]
    let scanned : Option (GsmdUcmd × List Scanned) :=
      if len ≠ 0 then
        match (sscanf resp (ordinary "+CNUM: \"" ++ [.set none true notQuote, .lit 34, .lit 44] ++
          number)).2 with
        | .text name :: scanned => some (ucmd.store 42 (name ++ [0]), scanned)
        | _ => none
      else some (ucmd, (sscanf resp (ordinary "+CNUM: ," ++ number)).2)
    match scanned with
    | some (ucmd, .text number :: .int type :: service) =>
      let service := match service with
        | .int service :: _ => service
        | _ => -1
      some { reply := some (((((ucmd.store 9 (number ++ [0])).store 4 (intBytes service)).store
        (42 + len) [0]).store 8 [intByte type]).store 0 (isLast cmd)) }
    | _ => some { rc := -EINVAL }

end SystemTestSuite.GsmDaemon
