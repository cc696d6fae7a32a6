import SystemTestSuite.GsmDaemon.UsockCallbacks

namespace SystemTestSuite.GsmDaemon

open Library

/-- Offsets in a `struct gsmd_phonebook`. -/
def pbNumb : ℕ := 1
def pbType : ℕ := 46
def pbText : ℕ := 47
def sizeofPhonebook : ℕ := 62

/-- The quoted text between the quote at `fcomma` and the next one, copied by `strncpy` and ended
with NUL. -/
def quoted (s : Bytes) (fcomma : ℕ) : Option (ℕ × Bytes) := do
  let n ← strchr (s.drop (fcomma + 1)) 34
  return (fcomma + 1 + n, (s.drop (fcomma + 1)).take n ++ [0])

def pbEntry (m : Memory) (s : Bytes) : Option Memory := do
  let space ← strchr s 32
  let fcomma ← strchr s 34
  let (lcomma, numb) ← quoted s fcomma
  let comma ← strrchr s 44
  let (_, text) ← quoted s (comma + 1)
  return (((m.store 0 [intByte (atoi (s.drop (space + 1)))]).store pbNumb numb).store pbType
    [intByte (atoi (s.drop (lcomma + 2)))]).store pbText text

def pbEntries (u : Unset) (resp : Bytes) (msgSubtype : UInt8) :
    Option (GsmdUcmd × List Memory) := do
  let entries ← ((strtokAll 10 resp).zipIdx).mapM (fun l => pbEntry (u.entries l.2) l.1)
  let ucmd := gsmdUcmdFill u.ucmd 4 gsmdMsgPhonebook msgSubtype 0
  return (ucmd.store 0 (intBytes entries.length), entries)

def phonebookFindCb (u : Unset) (resp : Bytes) : Option CbOutcome :=
  (pbEntries u resp gsmdPhonebookFind).map (fun r => { reply := some r.1, found := r.2 })

def phonebookReadrgCb (u : Unset) (resp : Bytes) : Option CbOutcome :=
  (pbEntries u resp gsmdPhonebookReadrg).map (fun r => { reply := some r.1, ranged := r.2 })

def phonebookReadCb (u : Unset) (resp : Bytes) : Option CbOutcome := do
  let ucmd := gsmdUcmdFill u.ucmd sizeofPhonebook gsmdMsgPhonebook gsmdPhonebookRead 0
  let gp ← if strncmp resp (ascii "+CPBR") 5 then pbEntry ucmd.buf resp
    else some (ucmd.buf.store 0 [0])
  return { reply := some { ucmd with buf := gp } }

def pbTextReply (u : Unset) (resp : Bytes) (msgSubtype : UInt8) : Option CbOutcome :=
  let ucmd := gsmdUcmdFill u.ucmd ((cstr resp).length + 1) gsmdMsgPhonebook msgSubtype 0
  some { reply := some (ucmd.store 0 (cstr resp ++ [0])) }

def phonebookWriteCb (u : Unset) (resp : Bytes) : Option CbOutcome :=
  pbTextReply u resp gsmdPhonebookWrite

def phonebookDeleteCb (u : Unset) (resp : Bytes) : Option CbOutcome :=
  pbTextReply u resp gsmdPhonebookDelete

def getImsiCb (u : Unset) (resp : Bytes) : Option CbOutcome :=
  pbTextReply u resp gsmdPhonebookGetImsi

def phonebookGetSupportCb (u : Unset) (resp : Bytes) : Option CbOutcome :=
  let ucmd := gsmdUcmdFill u.ucmd 3 gsmdMsgPhonebook gsmdPhonebookGetSupport 0
  match strchr resp 45, strchr resp 44, strrchr resp 44 with
  | some dash, some fcomma, some lcomma =>
    some { reply := some (ucmd.store 0 [intByte (atoi (resp.drop (dash + 1))),
      intByte (atoi (resp.drop (fcomma + 1))), intByte (atoi (resp.drop (lcomma + 1)))]) }
  | _, _, _ => some { rc := - EIO }

/-- `num` is a byte; the names stand in `mem`, 8 bytes apart. -/
def storageLoop (buf : Memory) (num : UInt8) (s : Bytes) : UInt8 × Memory :=
  match _h : strpbrk s (ascii "(,") with
  | none => (num, buf)
  | some ptr =>
    storageLoop (buf.store (1 + 8 * num.toNat) (strncpy (s.drop (ptr + 2)) 2 ++ [0])) (num + 1)
      (s.drop (ptr + 2))
termination_by s.length
decreasing_by
  have hlt := (List.findIdx?_eq_some_iff_findIdx_eq.mp _h).1
  have hle := cstr_length_le s
  rw [List.length_drop]
  omega

def phonebookListStorageCb (u : Unset) (resp : Bytes) : Option CbOutcome :=
  let ucmd := gsmdUcmdFill u.ucmd 161 gsmdMsgPhonebook gsmdPhonebookListStorage 0
  let r := if strncmp resp (ascii "+CPBS") 5 then storageLoop ucmd.buf 0 resp else (0, ucmd.buf)
  some { reply := some { ucmd with buf := r.2.store 0 [r.1] } }

end SystemTestSuite.GsmDaemon
