import SystemTestSuite.GsmDaemon.SmsSubmit
import SystemTestSuite.GsmDaemon.UsockRequests
import SystemTestSuite.Library.CheckedArray
import SystemTestSuite.Library.Decimal

/-!
`sms_pdu_make_smssubmit` and the branches of `usock_rcv_sms` that call it, with every access to
`addr.number`, `payload.data`, `header` and `buf` checked. `none` is an access outside.
-/

namespace SystemTestSuite.GsmDaemon

open Library

def numberSize : ℕ := gsmdAddrMaxlen + 1

def dataSize : ℕ := gsmdSmsDataMaxlen + 1

def headerSize : ℕ := 15 + gsmdAddrMaxlen

def bufSize : ℕ := 1024

/-- The loop over the digits from the `i`-th on; `room` bytes of the number are left. -/
def pushNumber (number : Memory) : ℕ → ℕ → Bytes → Option Bytes
  | 0, _, _ => none
  | 1, i, header => if number i = 0 then some header else none
  | room + 2, i, header =>
    if number i = 0 then some header
    else if number (i + 1) ≠ 0 then do
      let header ← push headerSize header
        ((number i - 48 : UInt8) ||| ((number (i + 1) - 48 : UInt8) <<< 4))
      pushNumber number room (i + 2) header
    else push headerSize header ((number i - 48 : UInt8) ||| 0xf0)

def checkedHeader (src : GsmdSmsSubmit) : Option Bytes := do
  let number ← src.addr.number.string? 0 numberSize
  let header ← [0x00, submitFlags src, 0x00, UInt8.ofNat number.length, src.addr.type].foldlM
    (push headerSize) []
  let header ← pushNumber src.addr.number numberSize 0 header
  [0x00, src.payload.codingScheme, src.payload.length].foldlM (push headerSize) header

def printOctet (data : Memory) (buf : Bytes) (i : ℕ) : Option Bytes := do
  sprint bufSize buf (hexOctet (← readArray dataSize data i))

/-- `dest` is what stands in `buf` before it, if it is not NULL. -/
def checkedSmssubmit (dest : Option Bytes) (src : GsmdSmsSubmit) : Option (Bytes × ℕ) := do
  let header ← checkedHeader src
  let len := smsDataBytelen src.payload.codingScheme src.payload.length
  match dest with
  | none => return ([], header.length + len)
  | some buf =>
    let buf ← header.foldlM (fun buf b => sprint bufSize buf (hexOctet b)) buf
    let buf ← (List.range len).foldlM (printOctet src.payload.data) buf
    return (buf, header.length + len)

def checkedCommandText (textMode : Bool) (command : String) (args : Bytes) (sms : GsmdSmsSubmit) :
    Option Bytes := do
  let buf ← if textMode then do
      let number ← sms.addr.number.string? 0 numberSize
      let data ← printedUpTo dataSize sms.payload.data 0 sms.payload.length.toNat
      sprint bufSize [] (ascii command ++ ascii "\"" ++ number ++ ascii "\"\n" ++ data)
    else do
      let (_, count) ← checkedSmssubmit none sms
      let buf ← sprint bufSize [] (ascii command ++ printInt (count - 1) ++ args ++ ascii "\n")
      let (buf, _) ← checkedSmssubmit (some buf) sms
      pure buf
  [26, 0].foldlM (push bufSize) buf

inductive SubmitRequest
  | send
  | write
  deriving DecidableEq, Repr

namespace SubmitRequest

def msgSubtype : SubmitRequest → UInt8
  | send => gsmdSmsSend
  | write => gsmdSmsWrite

def size : SubmitRequest → ℕ
  | send => sizeofSmsSubmit
  | write => 1 + sizeofSmsSubmit

def checked (textMode : Bool) (buf : Memory) (len : ℕ) :
    SubmitRequest → Option (Except Refusal Bytes)
  | send =>
    if len < sizeofHdr + sizeofSmsSubmit then some (.error .einval)
    else (checkedCommandText textMode "AT+CMGS=" [] (smsSubmitAt buf sizeofHdr)).map .ok
  | write =>
    if len < sizeofHdr + (1 + sizeofSmsSubmit) then some (.error .einval)
    else
      let stat := (buf sizeofHdr).toNat
      if stat > 4 then some (.error .einval)
      else (checkedCommandText textMode "AT+CMGW=" (ascii "," ++ printInt stat)
        (smsSubmitAt buf (sizeofHdr + 1))).map .ok

end SubmitRequest

variable {src : GsmdSmsSubmit} {ds header buf : Bytes} {number : Memory}

theorem pushNumber_digits (number : Memory) (room i : ℕ) {header ds : Bytes}
    (h : number.string? i room = some ds)
    (hroom : header.length + (semiOctets ds).length ≤ headerSize) :
    pushNumber number room i header = some (header ++ semiOctets ds) := by
  match room with
  | 0 => cases h
  | 1 =>
    rw [Memory.string?] at h
    split_ifs at h with hzero
    · rw [pushNumber, if_pos hzero, ← Option.some.inj h]
      simp [semiOctets]
    · cases h
  | room + 2 =>
    rw [Memory.string?] at h
    split_ifs at h with hzero
    · rw [pushNumber, if_pos hzero, ← Option.some.inj h]
      simp [semiOctets]
    · obtain ⟨rest, hrest, rfl⟩ := Option.map_eq_some_iff.mp h
      rw [pushNumber, if_neg hzero]
      rw [Memory.string?] at hrest
      split_ifs at hrest with hlast
      · obtain rfl := Option.some.inj hrest
        rw [if_neg (not_not.mpr hlast)]
        exact if_pos (Nat.lt_of_succ_le (by simpa [semiOctets] using hroom))
      · obtain ⟨more, hmore, rfl⟩ := Option.map_eq_some_iff.mp hrest
        rw [semiOctets, List.length_cons] at hroom
        have hpush : push headerSize header
            ((number i - 48 : UInt8) ||| ((number (i + 1) - 48 : UInt8) <<< 4)) = some (header ++
              [(number i - 48 : UInt8) ||| ((number (i + 1) - 48 : UInt8) <<< 4)]) :=
          if_pos (by omega)
        rw [if_pos hlast, hpush, Option.bind_eq_bind, Option.bind_some,
          pushNumber_digits number room (i + 2) hmore (by
            rw [List.length_append, List.length_singleton]
            omega), semiOctets, List.append_assoc, List.singleton_append]

theorem checkedHeader_eq (h : src.addr.number.string? 0 numberSize = some ds) :
    checkedHeader src = some (submitHeader src) ∧ (submitHeader src).length ≤ 24 := by
  have htext : src.addr.text = ds := by
    rw [GsmdAddr.text, Memory.text]
    exact congrArg (Option.getD · _) h
  have hlen : ds.length ≤ 32 := Nat.le_of_lt_succ ((Memory.string?_eq_some_iff _).mp h).1
  have hsemi := semiOctets_length ds
  have hsize : headerSize = 47 := rfl
  obtain ⟨start, hstart⟩ : ∃ start : Bytes, start =
      [0x00, submitFlags src, 0x00, UInt8.ofNat ds.length, src.addr.type] := ⟨_, rfl⟩
  obtain ⟨behind, hbehind⟩ : ∃ behind : Bytes, behind =
      [0x00, src.payload.codingScheme, src.payload.length] := ⟨_, rfl⟩
  have hfive : start.length = 5 := by rw [hstart]; rfl
  have hthree : behind.length = 3 := by rw [hbehind]; rfl
  have hsubmit : submitHeader src = start ++ semiOctets ds ++ behind := by
    rw [submitHeader, htext, hstart, hbehind]
  have hbefore := @pushAll headerSize [] start (by rw [List.length_nil]; omega)
  rw [List.nil_append] at hbefore
  have hdigits := @pushNumber_digits src.addr.number numberSize 0 start ds h (by omega)
  have hend := @pushAll headerSize (start ++ semiOctets ds) behind (by
    rw [List.length_append]
    omega)
  constructor
  · rw [checkedHeader, h, hsubmit, ← hend, hbehind]
    simp only [Option.bind_eq_bind, Option.bind_some, ← hstart, hbefore, hdigits]
  · rw [hsubmit, List.length_append, List.length_append]
    omega

theorem printData (data : Memory) {len : ℕ} (hroom : buf.length + 2 * dataSize < bufSize) :
    (List.range len).foldlM (printOctet data) buf =
      if len ≤ dataSize then some (buf ++ hexText (data.slice 0 len)) else none := by
  split_ifs with hlen
  · have hstep : ∀ i < len, printOctet data (buf ++ hexText (data.slice 0 i)) i =
        some (buf ++ hexText (data.slice 0 (i + 1))) := by
      intro i hi
      have hprint : (buf ++ hexText (data.slice 0 i)).length + (hexOctet (data i)).length < bufSize := by
        have hoctet : (hexOctet (data i)).length = 2 := rfl
        rw [List.length_append, hexText_length, Memory.slice_length, hoctet]
        omega
      have hhex : hexText [data i] = hexOctet (data i) := List.append_nil _
      rw [printOctet, readArray_some (by omega), Option.bind_eq_bind, Option.bind_some, sprint_some hprint,
        Memory.slice_succ, Nat.zero_add, hexText, hexText, List.flatMap_append, ← hexText, ← hexText, hhex,
        List.append_assoc]
    have hall := @foldlM_range _ _ _ (fun i => buf ++ hexText (data.slice 0 i)) hstep
    rw [Memory.slice, hexText, List.flatMap_nil, List.append_nil] at hall
    exact hall
  · apply foldlM_none (List.mem_range.mpr (Nat.lt_of_not_le hlen))
    intro buf
    have hread : readArray dataSize data dataSize = none := if_neg (Nat.lt_irrefl _)
    rw [printOctet, hread]
    rfl

theorem checkedSmssubmit_null (h : src.addr.number.string? 0 numberSize = some ds) :
    checkedSmssubmit none src = some (smsPduMakeSmssubmit false src) := by
  rw [checkedSmssubmit, (checkedHeader_eq h).1]
  rfl

theorem checkedSmssubmit_dest (h : src.addr.number.string? 0 numberSize = some ds)
    (hbuf : buf.length ≤ 100) :
    checkedSmssubmit (some buf) src =
      if smsDataBytelen src.payload.codingScheme src.payload.length ≤ dataSize then
        some (buf ++ (smsPduMakeSmssubmit true src).1, (smsPduMakeSmssubmit true src).2)
      else none := by
  obtain ⟨hheader, hlen⟩ := checkedHeader_eq h
  have hsize : bufSize = 1024 := rfl
  have hdata : dataSize = 165 := rfl
  have hhex := hexText_length (submitHeader src)
  have hprint := @sprintAll bufSize buf (submitHeader src) hexOctet (by
    rw [← hexText]
    omega)
  rw [← hexText] at hprint
  have hroom : (buf ++ hexText (submitHeader src)).length + 2 * dataSize < bufSize := by
    rw [List.length_append]
    omega
  simp only [checkedSmssubmit, hheader, Option.bind_eq_bind, Option.bind_some, hprint,
    printData src.payload.data hroom]
  split_ifs with hle
  · simp [smsPduMakeSmssubmit]
  · rfl

def FitsArrays (textMode : Bool) (src : GsmdSmsSubmit) : Prop :=
  (∃ i < numberSize, src.addr.number i = 0) ∧
    if textMode then src.payload.length.toNat ≤ dataSize ∨ ∃ i < dataSize, src.payload.data i = 0
    else smsDataBytelen src.payload.codingScheme src.payload.length ≤ dataSize

instance decidableFitsArrays (textMode : Bool) (src : GsmdSmsSubmit) :
    Decidable (FitsArrays textMode src) := by
  unfold FitsArrays
  infer_instance

theorem smsDataBytelen_le (scheme length : UInt8) : smsDataBytelen scheme length ≤ 510 := by
  have hlength : length.toNat < 256 := length.toNat_lt
  unfold smsDataBytelen
  split_ifs
  · rw [Nat.shiftRight_eq_div_pow]
    omega
  · omega
  · omega
  · omega

def commandText (textMode : Bool) (command : String) (args : Bytes) (src : GsmdSmsSubmit) : Bytes :=
  if textMode then
    ascii command ++ ascii "\"" ++ src.addr.text ++ ascii "\"\n" ++
      (src.payload.data.slice 0 src.payload.length.toNat).takeWhile (· ≠ 0)
  else
    ascii command ++ printInt ((smsPduMakeSmssubmit false src).2 - 1) ++ args ++ ascii "\n" ++
      (smsPduMakeSmssubmit true src).1

variable {command : String} {args : Bytes}

theorem checkedCommandText_unended (textMode : Bool)
    (h : src.addr.number.string? 0 numberSize = none) :
    checkedCommandText textMode command args src = none := by
  cases textMode with
  | true => simp only [checkedCommandText, h, if_true, Option.bind_eq_bind, Option.bind_none]
  | false => simp only [checkedCommandText, checkedSmssubmit, checkedHeader, h, Bool.false_eq_true,
      if_false, Option.bind_eq_bind, Option.bind_none]

theorem checkedCommandText_text (hcommand : (ascii command).length ≤ 8)
    (h : src.addr.number.string? 0 numberSize = some ds) :
    checkedCommandText true command args src =
      if src.payload.length.toNat ≤ dataSize ∨ ∃ i < dataSize, src.payload.data i = 0 then
        some (commandText true command args src ++ [26, 0])
      else none := by
  have hsize : bufSize = 1024 := rfl
  have hdata : dataSize = 165 := rfl
  have hnumber : src.addr.text = ds := by
    rw [GsmdAddr.text, Memory.text]
    exact congrArg (Option.getD · _) h
  have hlen : ds.length ≤ 32 := Nat.le_of_lt_succ ((Memory.string?_eq_some_iff _).mp h).1
  have hprinted := @printedUpTo_isSome dataSize 0 src.payload.length.toNat src.payload.data
    (Nat.zero_le _)
  rw [Nat.zero_add] at hprinted
  simp only [Nat.zero_le, true_and] at hprinted
  simp only [checkedCommandText, if_true, h, Option.bind_eq_bind, Option.bind_some, ← hprinted]
  cases hread : printedUpTo dataSize src.payload.data 0 src.payload.length.toNat with
  | none => rfl
  | some data =>
    have hbyte : src.payload.length.toNat < 256 := src.payload.length.toNat_lt
    have hle := printedUpTo_length hread
    have htext := printedUpTo_eq hread
    obtain ⟨line, hline⟩ : ∃ line, line = ascii command ++ ascii "\"" ++ ds ++ ascii "\"\n" ++ data :=
      ⟨_, rfl⟩
    have hroom : line.length + 2 ≤ bufSize := by
      have hquote : (ascii "\"").length = 1 := rfl
      have hend : (ascii "\"\n").length = 2 := rfl
      rw [hline, List.length_append, List.length_append, List.length_append, List.length_append]
      omega
    have hprint := @sprint_some bufSize [] line (by rw [List.length_nil]; omega)
    rw [List.nil_append] at hprint
    have hpush := @pushAll bufSize line [26, 0] hroom
    rw [Option.bind_some, ← hline, hprint, Option.bind_some, if_pos Option.isSome_some, hpush,
      commandText, if_pos rfl, hnumber, ← htext, hline]

theorem checkedCommandText_pdu (hcommand : (ascii command).length ≤ 8) (hargs : args.length ≤ 12)
    (h : src.addr.number.string? 0 numberSize = some ds) :
    checkedCommandText false command args src =
      if smsDataBytelen src.payload.codingScheme src.payload.length ≤ dataSize then
        some (commandText false command args src ++ [26, 0])
      else none := by
  obtain ⟨start, hstart⟩ : ∃ start, start = ascii command ++
    printInt ((smsPduMakeSmssubmit false src).2 - 1) ++ args ++ ascii "\n" := ⟨_, rfl⟩
  have hsize : bufSize = 1024 := rfl
  have hdata : dataSize = 165 := rfl
  obtain ⟨-, hheader⟩ := checkedHeader_eq h
  have hlen : start.length ≤ 40 := by
    have hle := smsDataBytelen_le src.payload.codingScheme src.payload.length
    have hcount : (smsPduMakeSmssubmit false src).2 = (submitHeader src).length +
        smsDataBytelen src.payload.codingScheme src.payload.length := rfl
    have hprint := @printInt_length ((smsPduMakeSmssubmit false src).2 - 1) (by omega)
    have hnl : (ascii "\n").length = 1 := rfl
    rw [hstart, List.length_append, List.length_append, List.length_append]
    omega
  have hprint := @sprint_some bufSize [] start (by rw [List.length_nil]; omega)
  rw [List.nil_append] at hprint
  simp only [checkedCommandText, Bool.false_eq_true, if_false, Option.bind_eq_bind,
    checkedSmssubmit_null h, Option.bind_some, ← hstart, hprint,
    checkedSmssubmit_dest h (hlen.trans (by decide))]
  split_ifs with hfits
  · have hdest := (writesAll src).1
    have hroom : (start ++ (smsPduMakeSmssubmit true src).1).length + [(26 : UInt8), 0].length ≤
        bufSize := by
      have hcount : (smsPduMakeSmssubmit true src).2 = (submitHeader src).length +
        smsDataBytelen src.payload.codingScheme src.payload.length := rfl
      have htwo : [(26 : UInt8), 0].length = 2 := rfl
      rw [List.length_append]
      omega
    simp only [Option.bind_some, Option.pure_def, commandText, Bool.false_eq_true, if_false, ← hstart]
    exact pushAll hroom
  · rfl

theorem checkedCommandText_eq (textMode : Bool) (hcommand : (ascii command).length ≤ 8)
    (hargs : args.length ≤ 12) :
    checkedCommandText textMode command args src =
      if FitsArrays textMode src then some (commandText textMode command args src ++ [26, 0])
      else none := by
  have hends := Memory.string?_isSome src.addr.number 0 numberSize
  simp only [Nat.zero_add] at hends
  cases h : src.addr.number.string? 0 numberSize with
  | none =>
    rw [h] at hends
    have hout : ¬ FitsArrays textMode src := fun hfits => absurd (hends.mpr hfits.1) Bool.false_ne_true
    rw [checkedCommandText_unended textMode h, if_neg hout]
  | some ds =>
    rw [h] at hends
    have hin := hends.mp Option.isSome_some
    cases textMode with
    | true =>
      have hfits : FitsArrays true src ↔ src.payload.length.toNat ≤ dataSize ∨
          ∃ i < dataSize, src.payload.data i = 0 := and_iff_right hin
      rw [checkedCommandText_text hcommand h]
      exact if_congr hfits.symm rfl rfl
    | false =>
      have hfits : FitsArrays false src ↔
          smsDataBytelen src.payload.codingScheme src.payload.length ≤ dataSize := and_iff_right hin
      rw [checkedCommandText_pdu hcommand hargs h]
      exact if_congr hfits.symm rfl rfl

theorem smsCommandText_eq {textMode : Bool} {buf : Memory} {off : ℕ} (hoff : off + 34 ≤ rcvBufSize)
    (h : FitsArrays textMode (smsSubmitAt buf off)) :
    smsCommandText textMode command args buf off =
      commandText textMode command args (smsSubmitAt buf off) ++ [26] := by
  cases textMode with
  | false => rfl
  | true =>
    have hends := Memory.string?_isSome (smsSubmitAt buf off).addr.number 0 numberSize
    simp only [Nat.zero_add] at hends
    obtain ⟨ds, hds⟩ := Option.isSome_iff_exists.mp (hends.mpr h.1)
    have hsize : numberSize = 33 := rfl
    have hstring := Memory.string?_room buf (by omega : numberSize ≤ rcvBufSize - (off + 1))
      ((Memory.string?_shift buf (off + 1) 0).mp hds)
    have hnumber : (smsSubmitAt buf off).addr.text = stringAt buf (off + 1) := by
      rw [GsmdAddr.text, Memory.text, stringAt, hstring]
      exact congrArg (Option.getD · _) hds
    have hdata := Memory.slice_shift buf (off + 69) 0 (smsSubmitAt buf off).payload.length.toNat
    have htext : stringWithin buf (off + 69) (smsSubmitAt buf off).payload.length.toNat =
        ((smsSubmitAt buf off).payload.data.slice 0
          (smsSubmitAt buf off).payload.length.toNat).takeWhile (· ≠ 0) :=
      congrArg cstr hdata.symm
    rw [smsCommandText, commandText, if_pos rfl, if_pos rfl, htext, hnumber]

namespace SubmitRequest

def Refused (buf : Memory) : SubmitRequest → Prop
  | send => False
  | write => 4 < (buf sizeofHdr).toNat

instance decidableRefused (buf : Memory) : (r : SubmitRequest) → Decidable (r.Refused buf)
  | send => inferInstanceAs (Decidable False)
  | write => inferInstanceAs (Decidable (_ < _))

def submitted (buf : Memory) : SubmitRequest → GsmdSmsSubmit
  | send => smsSubmitAt buf sizeofHdr
  | write => smsSubmitAt buf (sizeofHdr + 1)

def text (textMode : Bool) (buf : Memory) : SubmitRequest → Bytes
  | send => commandText textMode "AT+CMGS=" [] (smsSubmitAt buf sizeofHdr)
  | write => commandText textMode "AT+CMGW=" (ascii "," ++ printInt (buf sizeofHdr).toNat)
      (smsSubmitAt buf (sizeofHdr + 1))

def cb : SubmitRequest → UsockCb
  | send => .smsSendCb
  | write => .smsWriteCb

variable (r : SubmitRequest) {textMode : Bool} {buf : Memory} {len : ℕ}

theorem checked_eq (textMode : Bool) (buf : Memory) (len : ℕ) :
    r.checked textMode buf len =
      if len < sizeofHdr + r.size then some (.error .einval)
      else if r.Refused buf then some (.error .einval)
      else if FitsArrays textMode (r.submitted buf) then some (.ok (r.text textMode buf ++ [26, 0]))
      else none := by
  cases r with
  | send =>
    have htext := @checkedCommandText_eq (smsSubmitAt buf sizeofHdr) "AT+CMGS=" [] textMode
      (by decide) (Nat.zero_le _)
    have hnever : ¬ Refused buf send := not_false
    rw [checked, if_neg hnever, htext, apply_ite (Option.map Except.ok)]
    rfl
  | write =>
    have hargs : (ascii "," ++ printInt (buf sizeofHdr).toNat).length ≤ 12 := by
      have hprint := printByte_length (buf sizeofHdr)
      have hcomma : (ascii ",").length = 1 := rfl
      rw [List.length_append]
      omega
    have htext := @checkedCommandText_eq (smsSubmitAt buf (sizeofHdr + 1)) "AT+CMGW="
      (ascii "," ++ printInt (buf sizeofHdr).toNat) textMode (by decide) hargs
    dsimp only [checked]
    rw [htext, apply_ite (Option.map Except.ok)]
    rfl

def uncheckedText (textMode : Bool) (buf : Memory) : SubmitRequest → Bytes
  | send => smsCommandText textMode "AT+CMGS=" [] buf sizeofHdr
  | write => smsCommandText textMode "AT+CMGW=" (ascii "," ++ printInt (buf sizeofHdr).toNat) buf
      (sizeofHdr + 1)

theorem usockRcvSms_submit (hsubtype : (hdrAt buf 0).msgSubtype = r.msgSubtype) (textMode : Bool)
    (gu : ℕ) (client : Client) :
    usockRcvSms textMode gu client buf len =
      if len < sizeofHdr + r.size then .error .einval
      else if r.Refused buf then .error .einval
      else (sized (r.uncheckedText textMode buf) (some r.cb) gu (hdrAt buf 0).id).map
        (submits client) := by
  unfold usockRcvSms
  dsimp only
  cases r with
  | send =>
    have hsend : (hdrAt buf 0).msgSubtype = gsmdSmsSend := hsubtype
    have hnever : ¬ Refused buf send := not_false
    rw [hsend, if_neg (by decide), if_neg (by decide), if_pos rfl, if_neg hnever]
    by_cases hshort : len < sizeofHdr + sizeofSmsSubmit
    · rw [if_pos hshort]
      exact (if_pos hshort).symm
    · rw [if_neg hshort]
      exact (if_neg hshort).symm
  | write =>
    have hwrite : (hdrAt buf 0).msgSubtype = gsmdSmsWrite := hsubtype
    rw [hwrite, if_neg (by decide), if_neg (by decide), if_neg (by decide), if_pos rfl]
    by_cases hshort : len < sizeofHdr + (1 + sizeofSmsSubmit)
    · rw [if_pos hshort]
      exact (if_pos hshort).symm
    · rw [if_neg hshort]
      apply Eq.trans ?_ (if_neg hshort).symm
      by_cases hstat : (buf sizeofHdr).toNat > 4
      · rw [if_pos hstat]
        exact (if_pos hstat).symm
      · rw [if_neg hstat]
        exact (if_neg hstat).symm

theorem uncheckedText_eq (h : FitsArrays textMode (r.submitted buf)) :
    r.uncheckedText textMode buf = r.text textMode buf ++ [26] := by
  cases r with
  | send => exact smsCommandText_eq (by decide) h
  | write => exact smsCommandText_eq (by decide) h

/-- Where every access stays inside, the checked handler is `usock_rcv_sms`. -/
theorem checked_submits {result : Except Refusal Bytes}
    (hsubtype : (hdrAt buf 0).msgSubtype = r.msgSubtype)
    (h : r.checked textMode buf len = some result) (gu : ℕ) (client : Client) :
    usockRcvSms textMode gu client buf len = result.bind fun text =>
      (filled text.dropLast text.length (some r.cb) gu (hdrAt buf 0).id).map (submits client) := by
  rw [checked_eq] at h
  rw [r.usockRcvSms_submit hsubtype]
  split_ifs at h ⊢ with hshort hrefused hfits
  · rw [← Option.some.inj h]
    rfl
  · rw [← Option.some.inj h]
    rfl
  · have hdrop : (r.text textMode buf ++ [26, 0]).dropLast = r.text textMode buf ++ [26] := by
      rw [List.dropLast_append_of_ne_nil (List.cons_ne_nil _ _)]
      rfl
    have hlength : (r.text textMode buf ++ [26, 0]).length =
        (r.text textMode buf ++ [26, 0]).dropLast.length + 1 := by
      rw [hdrop, List.length_append, List.length_append]
      rfl
    rw [← Option.some.inj h, r.uncheckedText_eq hfits, sized, ← hdrop, ← hlength]
    rfl

def StaysInside (textMode : Bool) (buf : Memory) (len : ℕ) : Prop :=
  r.checked textMode buf len ≠ none

theorem staysInside_iff_fitsArrays (hlen : sizeofHdr + r.size ≤ len) :
    r.StaysInside textMode buf len ↔ r.Refused buf ∨ FitsArrays textMode (r.submitted buf) := by
  rw [StaysInside, checked_eq, if_neg (Nat.not_lt.mpr hlen)]
  split_ifs with hrefused hfits
  · exact iff_of_true (Option.some_ne_none _) (Or.inl hrefused)
  · exact iff_of_true (Option.some_ne_none _) (Or.inr hfits)
  · exact iff_of_false (not_not.mpr rfl) (not_or.mpr ⟨hrefused, hfits⟩)

def blankSubmit (length codingScheme : UInt8) : Memory :=
  Memory.zero.store (sizeofHdr + 34) [length, codingScheme]

theorem staysInside_iff_fitsArrays_septets : send.StaysInside false (blankSubmit 160 0) 248 :=
  (staysInside_iff_fitsArrays send (le_refl 248)).mpr (by decide)

/-- 255 characters of UCS2 are 510 octets: more than `payload.data` holds and than `buf` has room for. -/
theorem staysInside_ucs2 : ¬ send.StaysInside false (blankSubmit 255 0x40) 248 := by
  rw [StaysInside, checked_eq, if_neg (by decide), if_neg (by decide), if_neg (by decide)]
  exact not_not.mpr rfl

end SubmitRequest

end SystemTestSuite.GsmDaemon
