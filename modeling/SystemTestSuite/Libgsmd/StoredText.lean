import SystemTestSuite.GsmDaemon.ListEntry
import SystemTestSuite.GsmDaemon.SmsSubmit
import SystemTestSuite.Libgsmd.RequestRuns
import SystemTestSuite.Libgsmd.SevenBitText

/-!
A text that one client writes to the card and another one reads: `lgsm_sms_write`, the command of
the daemon, the answer of the modem to `AT+CMGR`, the reply of the daemon, and what
`sms_msghandler` of `util/shell.c` prints.
-/

namespace SystemTestSuite.Libgsmd

open Library GsmDaemon

/-- What the modem answers to `AT+CMGR` for a message that came with `command`, an `AT+CMGW` with
its length, its status and the line with the PDU. -/
def cmgrAnswer (command : Bytes) : Bytes :=
  let arguments := (command.drop 8).takeWhile (· ≠ LF)
  let length := arguments.takeWhile (· ≠ 44)
  let hex := ((command.drop 8).drop (arguments.length + 1)).takeWhile (· ≠ 26)
  ascii "+CMGR: " ++ arguments.drop (length.length + 1) ++ ascii ",," ++ length ++ LF :: hex

def smsListAt (m : Memory) (off : ℕ) : GsmdSmsList where
  index := m off
  timeStamp i := m (off + 8 + i)
  addr := ⟨m (off + 15), fun i => m (off + 16 + i)⟩
  payload := {
    length := m (off + 49)
    codingScheme := m (off + 50)
    hasHeader := intAt m (off + 51)
    isVoicemail := intAt m (off + 55)
    dcs := ⟨m (off + 59), m (off + 63), m (off + 67), m (off + 71), m (off + 75), m (off + 79),
      m (off + 83)⟩
    data := fun i => m (off + 84 + i) }

def msgtype : List Bytes := [ascii "Unread", ascii "Received", ascii "Unsent", ascii "Sent"]

/-- `msgtype[sms->stat]`, `none` outside the array. -/
def shownType (m : Memory) (off : ℕ) : Option Bytes :=
  if intAt m (off + 4) < 0 then none else msgtype[(intAt m (off + 4)).toNat]?

def shownNumber (sms : GsmdSmsList) : Bytes :=
  (if sms.addr.type &&& toaTonMask = toaTonInternational then ascii "+" else []) ++ sms.addr.text

/-- The line with the text, `none` when a read leaves the message. -/
def shownText (sms : GsmdSmsList) : Option Bytes :=
  if sms.payload.codingScheme = alphabetDefault then
    (unpacking7bitCharacter sms.payload).map (fun r => ascii "\"" ++ cstr r.1 ++ ascii "\"\n")
  else if sms.payload.codingScheme = alphabet8bit then some (ascii "8-bit encoded data\n")
  else if sms.payload.codingScheme = alphabetUcs2 then some (ascii "Unicode-16 encoded text\n")
  else some []

section

variable {text number : Bytes} {dest : LgsmSms} {askDs stat : Int32}

def countedText (text : Bytes) : Bytes := if text.length % 8 = 7 then text ++ [0] else text

theorem countedText_length (text : Bytes) :
    (countedText text).length = 8 * packedLength text.length / 7 ∧
      packedLength (countedText text).length = packedLength text.length := by
  rw [countedText]
  split_ifs with h
  · rw [List.length_append, List.length_singleton, packedLength, packedLength]
    omega
  · exact ⟨((packed_length_iff _).mpr h).symm, rfl⟩

theorem countedText_le (h : text.length ≤ 160) : (countedText text).length ≤ 160 := by
  rw [countedText]
  split_ifs with hmod
  · rw [List.length_append, List.length_singleton]
    omega
  · exact h

theorem countedText_cstr (h : ∀ c ∈ text, c ≠ 0) (behind : Bytes) :
    cstr (countedText text ++ 0 :: behind) = text := by
  rw [countedText]
  split_ifs
  · rw [List.append_assoc]
    exact cstr_ended h (0 :: behind)
  · exact cstr_ended h behind

theorem countedText_ofText (text : Bytes) : ofText (countedText text) = ofText text := by
  rw [countedText]
  split_ifs
  · funext i
    rw [ofText, ofText]
    rcases Nat.lt_trichotomy i text.length with hlt | heq | hgt
    · rw [List.getElem?_append_left hlt]
    · rw [heq, List.getElem?_append_right le_rfl, Nat.sub_self, List.getElem?_eq_none le_rfl]
      rfl
    · have hbehind : (text ++ [0]).length ≤ i := by
        rw [List.length_append]
        exact hgt
      rw [List.getElem?_eq_none hbehind, List.getElem?_eq_none hgt.le]
  · rfl

abbrev textSms (text number : Bytes) (dest : LgsmSms) (askDs : Int32) : LgsmMessage :=
  { (packing7bitCharacter text dest).1 with addr := number, askDs := askDs }

theorem textSms_payload (hlen : text.length ≤ 160) :
    (textSms text number dest askDs).submit.payload.length.toNat = (countedText text).length ∧
      ∀ j < packedLength text.length,
        (textSms text number dest askDs).submit.payload.data j = packedOctet (ofText text) j := by
  have hroom : packedLength text.length ≤ lgsmSmsDataMaxlen := by
    rw [packedLength, lgsmSmsDataMaxlen]
    omega
  constructor
  · have hle := countedText_le hlen
    have hpacked : (textSms text number dest askDs).length = (countedText text).length := by
      rw [(countedText_length text).1]
      exact congrArg (fun r => r.1.length) (packing7bitCharacter_eq dest (hroom.trans (by decide)))
    change (UInt8.ofNat _).toNat = _
    rw [hpacked, UInt8.toNat_ofNat', Nat.mod_eq_of_lt (by omega)]
  · intro j hj
    have hcopy := @slice_inside Memory.zero (packing7bitCharacter text dest).1.data 0 j _
      (hj.trans_le hroom)
    rw [Nat.zero_add] at hcopy
    exact hcopy.trans (packed_octet dest (hroom.trans (by decide)) hj)

end

section

variable {κ : Type} {src : GsmdSmsSubmit} {n : ℕ}

theorem printInt_natCast (n : ℕ) : printInt n = decimal n := by
  rw [printInt, if_neg (by omega)]
  rfl

def submitPdu (src : GsmdSmsSubmit) : Bytes := submitHeader src ++ userData src

theorem submitPdu_length (src : GsmdSmsSubmit) :
    (submitPdu src).length = (smsPduMakeSmssubmit true src).2 ∧ 8 ≤ (submitPdu src).length := by
  have heq := congrArg Prod.snd (smsPduMakeSmssubmit_eq src)
  refine ⟨heq.symm, ?_⟩
  simp only [submitPdu, submitHeader, List.length_append, List.length_cons, List.length_nil]
  omega

def cmgwText (src : GsmdSmsSubmit) (n : ℕ) : Bytes :=
  ascii "AT+CMGW=" ++ (decimal ((submitPdu src).length - 1) ++ 44 :: (decimal n ++
    LF :: (hexText (submitPdu src) ++ [26])))

theorem commandText_cmgw (src : GsmdSmsSubmit) (n : ℕ) :
    commandText false "AT+CMGW=" (ascii "," ++ printInt n) src ++ [26] = cmgwText src n := by
  obtain ⟨hlen, hle⟩ := submitPdu_length src
  have hcount : (((smsPduMakeSmssubmit false src).2 : ℤ) - 1) =
      (((submitPdu src).length - 1 : ℕ) : ℤ) := by
    have hsame : (smsPduMakeSmssubmit false src).2 = (smsPduMakeSmssubmit true src).2 := rfl
    omega
  have hhex : (smsPduMakeSmssubmit true src).1 = hexText (submitPdu src) :=
    congrArg Prod.fst (smsPduMakeSmssubmit_eq src)
  rw [commandText, if_neg Bool.false_ne_true, hcount, hhex, printInt_natCast, printInt_natCast]
  simp [cmgwText, ascii, LF]

theorem takeWhile_stop {p : UInt8 → Bool} {as : Bytes} {b : UInt8} (bs : Bytes)
    (has : ∀ a ∈ as, p a = true) (hb : p b = false) : (as ++ b :: bs).takeWhile p = as := by
  rw [List.takeWhile_append_of_pos has, List.takeWhile_cons_of_neg (by rw [hb]; exact Bool.false_ne_true),
    List.append_nil]

theorem drop_behind (as bs : Bytes) (b : UInt8) : (as ++ b :: bs).drop (as.length + 1) = bs := by
  rw [← List.drop_drop, List.drop_left' rfl]
  rfl

def cmgrHeader (n len : ℕ) : Bytes :=
  ascii "+CMGR: " ++ (decimal n ++ 44 :: 44 :: (decimal len ++ [LF]))

def cmgrText (src : GsmdSmsSubmit) (n : ℕ) : Bytes :=
  cmgrHeader n ((submitPdu src).length - 1) ++ hexText (submitPdu src)

theorem cmgrAnswer_cmgw (src : GsmdSmsSubmit) (n : ℕ) :
    cmgrAnswer (cmgwText src n) = cmgrText src n := by
  have hhex : ∀ c ∈ hexText (submitPdu src), c ≠ 26 := by
    rintro c hc rfl
    have hdigit := hexOctets_digits (hexOctets_hexText (submitPdu src)) 26 hc
    exact absurd hdigit (by decide)
  have hargs : ∀ c ∈ decimal ((submitPdu src).length - 1) ++ 44 :: decimal n, c ≠ LF := by
    intro c hc
    rcases List.mem_append.mp hc with hc | hc
    · exact decimal_ne rfl _ c hc
    · rcases List.mem_cons.mp hc with rfl | hc
      · decide
      · exact decimal_ne rfl _ c hc
  have hdrop : (cmgwText src n).drop 8 = (decimal ((submitPdu src).length - 1) ++ 44 :: decimal n) ++
      LF :: (hexText (submitPdu src) ++ [26]) := by
    have hstart : (ascii "AT+CMGW=").length = 8 := rfl
    rw [cmgwText, List.drop_left' hstart, List.append_assoc]
    rfl
  have harguments := takeWhile_stop (p := fun c => decide (c ≠ LF)) (b := LF)
    (hexText (submitPdu src) ++ [26]) (fun c hc => decide_eq_true (hargs c hc)) rfl
  have hlength := takeWhile_stop (p := fun c => decide (c ≠ 44)) (b := 44) (decimal n)
    (fun c hc => decide_eq_true (decimal_ne rfl ((submitPdu src).length - 1) c hc)) rfl
  have hline := takeWhile_stop (p := fun c => decide (c ≠ 26)) (b := 26) []
    (fun c hc => decide_eq_true (hhex c hc)) rfl
  rw [cmgrAnswer, hdrop]
  simp only [harguments, hlength]
  rw [drop_behind, drop_behind, hline, cmgrText, cmgrHeader]
  simp [ascii]

theorem cmgrText_no_nul (src : GsmdSmsSubmit) (n : ℕ) : ∀ c ∈ cmgrText src n, c ≠ 0 := by
  have hhex : ∀ c ∈ hexText (submitPdu src), c ≠ 0 := by
    rintro c hc rfl
    have hdigit := hexOctets_digits (hexOctets_hexText (submitPdu src)) 0 hc
    exact absurd hdigit (by decide)
  intro c hc
  simp only [cmgrText, cmgrHeader, List.mem_append, List.mem_cons, List.not_mem_nil, or_false] at hc
  rcases hc with (hc | hc | rfl | rfl | hc | rfl) | hc
  · exact @no_nul_of_all (ascii "+CMGR: ") rfl c hc
  · exact decimal_ne rfl _ c hc
  · decide
  · decide
  · exact decimal_ne rfl _ c hc
  · decide
  · exact hhex c hc

theorem cmgrHeader_scan {len : ℕ} {rest : Bytes} (hn : n < 2 ^ 31) (hlen : len < 2 ^ 31)
    (hrest : ∀ b ∈ rest.head?, isSpace b = false) :
    sscanfLoop (ordinary "+CMGR: " ++ [.int true, .lit 44, .lit 44, .int true, .space, .count])
        (cmgrHeader n len ++ rest) 0 0 false =
      (2, [.int n, .int len, .count (cmgrHeader n len).length]) := by
  have hformat : ordinary "+CMGR: " = (ascii "+CMGR:").map .lit ++ [.space] := rfl
  have htext : cmgrHeader n len ++ rest = ascii "+CMGR:" ++ ([32] ++ (decimal n ++
      44 :: 44 :: (decimal len ++ ([LF] ++ rest)))) := by
    simp [cmgrHeader, ascii]
  have hcount : (cmgrHeader n len).length = (ascii "+CMGR:").length + 1 + (decimal n).length + 1 +
      1 + (decimal len).length + 1 := by
    simp [cmgrHeader, ascii]
    omega
  have hcomma (t : Bytes) : EndsNumber (44 :: t) := endsNumber_cons (by decide) (by decide) t
  have hline : EndsNumber ([LF] ++ rest) := endsNumber_cons (by decide) (by decide) rest
  rw [hformat, htext, List.append_assoc, sscanfLoop_lits, List.singleton_append,
    sscanfLoop_space (List.all_eq_true.mp rfl) (digits_no_space _ _),
    sscanfLoop_decimal hn (hcomma _), sscanfLoop, if_pos rfl, sscanfLoop, if_pos rfl,
    sscanfLoop_decimal hlen hline, sscanfLoop_space (List.all_eq_true.mp rfl) hrest, hcount]
  simp [sscanfLoop]

theorem smsReadCb_cmgr (u : Unset) {cmd : GsmdAtcmd κ} (hret : cmd.ret = 0) (hn : n < 2 ^ 31)
    (hlen : (submitPdu src).length ≤ 165) (behind : Bytes) : ∃ index,
      smsReadCb u cmd (cmgrText src n ++ 0 :: behind) = smsPduReply u cmd gsmdSmsRead index n
        ((submitPdu src).length - 1 : ℕ) (intBytes 1) (hexText (submitPdu src) ++ 0 :: behind) := by
  have hhead : ∀ b ∈ (hexText (submitPdu src)).head?, isSpace b = false := fun b hb =>
    hexDigit_not_space (hexOctets_digits (hexOctets_hexText _) b (List.mem_of_mem_head? hb))
  have hscan := @cmgrHeader_scan n ((submitPdu src).length - 1) _ hn (by omega) hhead
  have hdrop : (cmgrText src n ++ 0 :: behind).drop
      (cmgrHeader n ((submitPdu src).length - 1)).length =
        hexText (submitPdu src) ++ 0 :: behind := by
    rw [cmgrText, List.append_assoc, List.drop_left' rfl]
  have hsmall : ¬ (((submitPdu src).length - 1 : ℕ) : ℤ) > 164 := by omega
  rw [smsReadCb, if_neg (not_not.mpr hret)]
  simp only [sscanf, cstr_ended (cmgrText_no_nul src n)]
  rw [← cmgrText] at hscan
  rw [hscan]
  simp only [Int.reduceLT, if_false, hsmall, hdrop]
  exact ⟨_, rfl⟩

theorem smsReadCb_stored (h : Submittable src) (hscheme : src.payload.codingScheme ≠ alphabetUcs2)
    (hlength : src.payload.length ≠ 0) (hlen : (submitPdu src).length ≤ 165) (u : Unset)
    {cmd : GsmdAtcmd κ} (hret : cmd.ret = 0) (hn : n < 2 ^ 31) (behind : Bytes) : ∃ dst,
      (smsReadCb u cmd (cmgrText src n ++ 0 :: behind)).bind CbOutcome.reply =
        some (smsReply u cmd gsmdSmsRead n 1 (readBack dst src)) := by
  obtain ⟨index, hcb⟩ := @smsReadCb_cmgr κ src n u cmd hret hn hlen behind
  obtain ⟨hcount, hmin⟩ := submitPdu_length src
  have hoctets : readHexPdu smsMaxPduSize (hexText (submitPdu src) ++ 0 :: behind) =
      some (submitPdu src) := by
    have hmax : smsMaxPduSize = 180 := rfl
    have hread := readHexPdu_hex (hexOctets_hexText (submitPdu src)) smsMaxPduSize []
    obtain ⟨k, hk⟩ : ∃ k, smsMaxPduSize - (submitPdu src).length = k + 1 :=
      ⟨smsMaxPduSize - (submitPdu src).length - 1, by omega⟩
    rw [readHexPdu_nul, ← List.append_nil (hexText _), hread, hk,
      List.take_of_length_le (by omega)]
    exact congrArg some (List.append_nil _)
  have hpdulen : (((submitPdu src).length - 1 : ℕ) : ℤ) =
      ((smsPduMakeSmssubmit true src).2 : ℤ) - 1 := by omega
  refine ⟨{ u.msg with index := index }, ?_⟩
  rw [hcb, smsPduReply_iff (by omega)]
  refine ⟨submitPdu src, _, hoctets, ?_, rfl⟩
  rw [hpdulen, hcount]
  exact smsPduToMsg_reads h _ hscheme hlength

theorem smsListMemory_eq (m : Memory) (stat : ℤ) (last : Bytes) (msg : GsmdSmsList) :
    smsListMemory m stat last msg =
      (((((((((((m.store 0 [msg.index]).store 4 (intBytes stat)).store 8
        (msg.timeStamp.slice 0 7)).store 15 [msg.addr.type]).store 16
        (msg.addr.number.slice 0 33)).store 49 [msg.payload.length]).store 50
        [msg.payload.codingScheme]).store 51 (intBytes msg.payload.hasHeader)).store 55
        (intBytes msg.payload.isVoicemail)).store 59 msg.payload.dcs.bytes).store 84
        (msg.payload.data.slice 0 165)).store 252 last := by
  have hbytes : msg.timeStamp.slice 0 7 ++ msg.addr.bytes ++ msg.payload.bytes =
      msg.timeStamp.slice 0 7 ++ ([msg.addr.type] ++ (msg.addr.number.slice 0 33 ++
        ([msg.payload.length] ++ ([msg.payload.codingScheme] ++
          (intBytes msg.payload.hasHeader ++ (intBytes msg.payload.isVoicemail ++
            (msg.payload.dcs.bytes ++ msg.payload.data.slice 0 165))))))) := by
    simp [GsmdAddr.bytes, GsmdSms.bytes, gsmdAddrMaxlen, gsmdSmsDataMaxlen]
  rw [smsListMemory, hbytes]
  simp only [Memory.store_append]
  rfl

end

structure SameList (sms msg : GsmdSmsList) : Prop where
  type : sms.addr.type = msg.addr.type
  number : ∀ i < 33, sms.addr.number i = msg.addr.number i
  length : sms.payload.length = msg.payload.length
  codingScheme : sms.payload.codingScheme = msg.payload.codingScheme
  hasHeader : msg.payload.hasHeader = 0 ∨ msg.payload.hasHeader = 1 →
    sms.payload.hasHeader = msg.payload.hasHeader
  data : ∀ i < 165, sms.payload.data i = msg.payload.data i

theorem sameList_memory (m : Memory) (stat : ℤ) (last : Bytes) (msg : GsmdSmsList) :
    SameList (smsListAt (smsListMemory m stat last msg) 0) msg := by
  have hnumber : (msg.addr.number.slice 0 33).length = 33 := Memory.slice_length ..
  have hdcs : msg.payload.dcs.bytes.length = 25 := rfl
  have hdata : (msg.payload.data.slice 0 165).length = 165 := Memory.slice_length ..
  rw [smsListMemory_eq]
  constructor
  · simp only [smsListAt]
    rw [Memory.store_before _ _ (by omega), Memory.store_before _ _ (by omega),
      Memory.store_before _ _ (by omega), Memory.store_before _ _ (by omega),
      Memory.store_before _ _ (by omega), Memory.store_before _ _ (by omega),
      Memory.store_before _ _ (by omega), Memory.store_before _ _ (by omega)]
    exact store_head _ 15 _ []
  · intro i hi
    simp only [smsListAt, Nat.zero_add]
    rw [Memory.store_before _ _ (by omega), Memory.store_before _ _ (by omega),
      Memory.store_before _ _ (by omega), Memory.store_before _ _ (by omega),
      Memory.store_before _ _ (by omega), Memory.store_before _ _ (by omega),
      Memory.store_before _ _ (by omega), slice_inside hi]
  · simp only [smsListAt]
    rw [Memory.store_before _ _ (by omega), Memory.store_before _ _ (by omega),
      Memory.store_before _ _ (by omega), Memory.store_before _ _ (by omega),
      Memory.store_before _ _ (by omega), Memory.store_before _ _ (by omega)]
    exact store_head _ 49 _ []
  · simp only [smsListAt]
    rw [Memory.store_before _ _ (by omega), Memory.store_before _ _ (by omega),
      Memory.store_before _ _ (by omega), Memory.store_before _ _ (by omega),
      Memory.store_before _ _ (by omega)]
    exact store_head _ 50 _ []
  · intro hflag
    simp only [smsListAt, Nat.zero_add]
    rw [intAt_congr (fun i _ hi => Memory.store_before _ _ (by omega)),
      intAt_off hdata (by omega), intAt_off hdcs (by omega), intAt_off (n := 4) rfl (by omega)]
    exact intAt_flag _ _ hflag
  · intro i hi
    simp only [smsListAt, Nat.zero_add]
    rw [Memory.store_before _ _ (by omega), slice_inside hi]

theorem sameList_reply (stale : Memory) (u : Unset) {κ : Type} (cmd : GsmdAtcmd κ) (stat : ℤ)
    (msg : GsmdSmsList) : SameList (smsListAt (stale.store 0
      (smsReply u cmd gsmdSmsRead stat 1 msg).packet) sizeofHdr) msg := by
  obtain ⟨ucmd, hucmd⟩ : ∃ ucmd, ucmd = smsReply u cmd gsmdSmsRead stat 1 msg := ⟨_, rfl⟩
  have harrives : Arrives (stale.store 0 ucmd.packet) _ ucmd.hdr ucmd.hdr.len.toNat ucmd.buf :=
    Gmh.arrives ⟨ucmd.hdr, ucmd.buf⟩ stale
  have hsize : ucmd.hdr.len.toNat = sizeofSmsList := by
    rw [hucmd]
    rfl
  rw [hsize] at harrives
  have hoctet (i : ℕ) (hi : i < 256) : stale.store 0 ucmd.packet (sizeofHdr + i) =
      smsListMemory u.array stat (intBytes 1) msg i := by
    rw [harrives.bytes i hi, hucmd]
    exact smsReply_buf u cmd gsmdSmsRead stat 1 msg hi
  have hsame := sameList_memory u.array stat (intBytes 1) msg
  rw [← hucmd]
  constructor
  · refine Eq.trans ?_ hsame.type
    simp only [smsListAt, Nat.zero_add]
    exact hoctet 15 (by omega)
  · intro i hi
    refine Eq.trans ?_ (hsame.number i hi)
    simp only [smsListAt, Nat.zero_add]
    rw [Nat.add_assoc, hoctet _ (by omega)]
  · refine Eq.trans ?_ hsame.length
    simp only [smsListAt, Nat.zero_add]
    exact hoctet 49 (by omega)
  · refine Eq.trans ?_ hsame.codingScheme
    simp only [smsListAt, Nat.zero_add]
    exact hoctet 50 (by omega)
  · intro hflag
    refine Eq.trans ?_ (hsame.hasHeader hflag)
    simp only [smsListAt, Nat.zero_add]
    rw [harrives.int 51 (by decide), hucmd]
    apply intAt_congr
    intro i _ hi
    exact smsReply_buf u cmd gsmdSmsRead stat 1 msg (hi.trans (by decide))
  · intro i hi
    refine Eq.trans ?_ (hsame.data i hi)
    simp only [smsListAt, Nat.zero_add]
    rw [Nat.add_assoc, hoctet _ (by omega)]

theorem shownType_reply (stale : Memory) (u : Unset) {κ : Type} (cmd : GsmdAtcmd κ) {n : ℕ}
    (hn : n < 2 ^ 31) (msg : GsmdSmsList) :
    shownType (stale.store 0 (smsReply u cmd gsmdSmsRead n 1 msg).packet) sizeofHdr = msgtype[n]? := by
  obtain ⟨ucmd, hucmd⟩ : ∃ ucmd, ucmd = smsReply u cmd gsmdSmsRead n 1 msg := ⟨_, rfl⟩
  have harrives : Arrives (stale.store 0 ucmd.packet) _ ucmd.hdr ucmd.hdr.len.toNat ucmd.buf :=
    Gmh.arrives ⟨ucmd.hdr, ucmd.buf⟩ stale
  have hsize : ucmd.hdr.len.toNat = sizeofSmsList := by
    rw [hucmd]
    rfl
  rw [hsize] at harrives
  have hstat : intAt (stale.store 0 ucmd.packet) (sizeofHdr + 4) = n := by
    have hdcs : msg.payload.dcs.bytes.length = 25 := rfl
    have hnumber : (msg.addr.number.slice 0 33).length = 33 := Memory.slice_length ..
    have hstamp : (msg.timeStamp.slice 0 7).length = 7 := Memory.slice_length ..
    have hdata : (msg.payload.data.slice 0 165).length = 165 := Memory.slice_length ..
    rw [harrives.int 4 (by decide), hucmd,
      intAt_congr (fun i _ hi => smsReply_buf u cmd gsmdSmsRead n 1 msg (hi.trans (by decide))),
      smsListMemory_eq, intAt_off (n := 4) rfl (by omega), intAt_off hdata (by omega),
      intAt_off hdcs (by omega), intAt_off (n := 4) rfl (by omega), intAt_off (n := 4) rfl (by omega),
      intAt_off (n := 1) rfl (by omega), intAt_off (n := 1) rfl (by omega),
      intAt_off hnumber (by omega), intAt_off (n := 1) rfl (by omega), intAt_off hstamp (by omega)]
    exact intAt_store _ 4 hn
  have hpos : ¬ (n : ℤ) < 0 := Int.not_lt.mpr (Int.natCast_nonneg n)
  rw [← hucmd, shownType, hstat, if_neg hpos, Int.toNat_natCast]

section

variable {text number : Bytes} {dest : LgsmSms} {askDs : Int32}

theorem text_congr {m m' : Memory} {size : ℕ} (h : ∀ i < size, m i = m' i) :
    m.text size = m'.text size := by
  have hslice : m.slice 0 size = m'.slice 0 size :=
    Memory.slice_congr fun i _ hi => h i (by omega)
  have hstring : m.string? 0 size = m'.string? 0 size :=
    Memory.string?_congr fun i _ hi => h i (by omega)
  rw [Memory.text, Memory.text, hslice, hstring]

theorem textSms_addr (hnumber : IsNumber (cstr number)) :
    (textSms text number dest askDs).submit.addr =
      ⟨storedType number, Memory.zero.store 0 (storedNumber number true ++ [0])⟩ := by
  change (lgsmNumber2addr ⟨0, Memory.zero⟩ number true).2 = _
  rw [lgsmNumber2addr_eq _ hnumber.length]

theorem storedNumber_room (hnumber : IsNumber (cstr number)) :
    (storedNumber number true).length < gsmdAddrMaxlen + 1 :=
  Nat.lt_succ_of_le (storedNumber_length.trans hnumber.length)

theorem storedType_tons (number : Bytes) : storedType number &&& toaTonMask ≠ toaTonAlphanumeric ∧
    (storedType number &&& toaTonMask = toaTonInternational ↔ International (cstr number)) := by
  rw [storedType]
  split_ifs with hplus
  · exact ⟨by decide, iff_of_true (by decide) hplus⟩
  · exact ⟨by decide, iff_of_false (by decide) hplus⟩

theorem textSms_octets (hlen : text.length ≤ 160) :
    smsDataBytelen (textSms text number dest askDs).submit.payload.codingScheme
      (textSms text number dest askDs).submit.payload.length = packedLength text.length := by
  have hscheme : (textSms text number dest askDs).submit.payload.codingScheme = alphabetDefault :=
    rfl
  rw [hscheme, smsDataBytelen, if_pos rfl, (textSms_payload hlen).1, Nat.shiftRight_eq_div_pow,
    ← (countedText_length text).2, packedLength, Nat.mul_comm]

theorem textSms_submittable (hlen : text.length ≤ 160) (hnumber : IsNumber (cstr number)) :
    Submittable (textSms text number dest askDs).submit where
  number := by
    refine ⟨storedNumber number true, ?_, ?_⟩
    · rw [textSms_addr hnumber]
      dsimp only
      exact Memory.string?_stored _ storedNumber_no_nul (storedNumber_room hnumber)
    · exact storedNumber_digits.mpr ⟨hnumber.digits, fun h => Bool.noConfusion h.1⟩
  type := by
    rw [textSms_addr hnumber]
    exact (storedType_tons number).1
  scheme := .inl rfl
  room := by
    rw [textSms_octets hlen, packedLength, gsmdSmsDataMaxlen]
    omega

theorem textSms_fits (hlen : text.length ≤ 160) (hnumber : IsNumber (cstr number)) :
    FitsArrays false (textSms text number dest askDs).submit := by
  refine ⟨⟨(storedNumber number true).length, storedNumber_room hnumber, ?_⟩, ?_⟩
  · rw [textSms_addr hnumber]
    have hnul := Memory.store_nul Memory.zero 0 (storedNumber number true)
    rwa [Nat.zero_add] at hnul
  · have hsize : dataSize = 165 := rfl
    rw [if_neg Bool.false_ne_true, textSms_octets hlen, packedLength, hsize]
    omega

theorem textSms_text (hnumber : IsNumber (cstr number)) :
    (textSms text number dest askDs).submit.addr.text = storedNumber number true := by
  rw [textSms_addr hnumber]
  exact text_stored_number _ storedNumber_no_nul (storedNumber_room hnumber)

theorem textSms_pdu (hlen : text.length ≤ 160) (hnumber : IsNumber (cstr number)) :
    (submitPdu (textSms text number dest askDs).submit).length ≤ 165 := by
  have hroom := storedNumber_room hnumber
  have hmax : gsmdAddrMaxlen = 32 := rfl
  have hoctets := @textSms_octets text number dest askDs hlen
  rw [packedLength] at hoctets
  simp only [submitPdu, submitHeader, List.length_append, List.length_cons, List.length_nil,
    semiOctets_length, textSms_text hnumber, userData_length, hoctets]
  omega

theorem storedNumber_shown (number : Bytes) :
    (if International (cstr number) then ascii "+" else []) ++ storedNumber number true =
      cstr number := by
  rw [storedNumber]
  split_ifs with hplus
  · obtain ⟨rest, hrest⟩ := List.head?_eq_some_iff.mp hplus
    rw [hrest]
    rfl
  · rfl

theorem readBack_number {dst sms : GsmdSmsList} (hnumber : IsNumber (cstr number))
    (hsame : SameList sms (readBack dst (textSms text number dest askDs).submit)) :
    shownNumber sms = cstr number := by
  have hdigits : ∀ c ∈ storedNumber number true, isDigit c = true :=
    storedNumber_digits.mpr ⟨hnumber.digits, fun h => Bool.noConfusion h.1⟩
  have htype : sms.addr.type = storedType number := by
    rw [hsame.type]
    exact congrArg GsmdAddr.type (textSms_addr hnumber)
  have htext : sms.addr.text = storedNumber number true := by
    have hback := @digits_text (storedNumber number true) (storedType number) dst.addr.number
      hdigits (Nat.le_of_lt_succ (storedNumber_room hnumber))
    refine (text_congr hsame.number).trans ?_
    rw [readBack, textSms_text hnumber]
    exact hback
  rw [shownNumber, htype, htext, ← storedNumber_shown number]
  exact congrArg (· ++ storedNumber number true)
    (if_congr (storedType_tons number).2 rfl rfl)

theorem readBack_shown {dst sms : GsmdSmsList} (htext : ∀ c ∈ text, 1 ≤ c ∧ c ≤ 127)
    (hlen : text.length ≤ 160)
    (hsame : SameList sms (readBack dst (textSms text number dest askDs).submit)) :
    shownText sms = some (ascii "\"" ++ text ++ ascii "\"\n") := by
  obtain ⟨hlength, hpacked⟩ := @textSms_payload text number dest askDs hlen
  have hoctets := @textSms_octets text number dest askDs hlen
  have hscheme : sms.payload.codingScheme = alphabetDefault := hsame.codingScheme
  have hheader : sms.payload.hasHeader = 0 := hsame.hasHeader (.inl rfl)
  have hcount : sms.payload.length.toNat = (countedText text).length := by
    rw [hsame.length]
    exact hlength
  have hdata (j : ℕ) (hj : j < packedLength (countedText text).length) :
      sms.payload.data j = packedOctet (ofText (countedText text)) j := by
    have hroom : packedLength text.length ≤ 140 := by
      rw [packedLength]
      omega
    rw [(countedText_length text).2] at hj
    have huser : j < (userData (textSms text number dest askDs).submit).length := by
      rw [userData_length, hoctets]
      exact hj
    have hinside := Memory.store_inside dst.payload.data 0 _ huser
    rw [Nat.zero_add] at hinside
    rw [hsame.data j (by omega), countedText_ofText, ← hpacked j hj]
    refine (Memory.store_before _ _ huser).trans (hinside.trans ?_)
    exact (Memory.slice_getElem _ 0 _ _).trans (congrArg _ (Nat.zero_add j))
  have hsmall : ∀ c ∈ countedText text, c < 128 := by
    intro c hc
    rw [countedText] at hc
    split_ifs at hc
    · rcases List.mem_append.mp hc with hc | hc
      · exact UInt8.lt_iff_toNat_lt.mpr (Nat.lt_succ_of_le (UInt8.le_iff_toNat_le.mp (htext c hc).2))
      · rw [List.mem_singleton.mp hc]
        decide
    · exact UInt8.lt_iff_toNat_lt.mpr (Nat.lt_succ_of_le (UInt8.le_iff_toNat_le.mp (htext c hc).2))
  have hno : ∀ c ∈ text, c ≠ 0 := by
    rintro c hc rfl
    exact absurd (htext 0 hc).1 (by decide)
  have hunpacked := survives_unpacked hsmall (countedText_le hlen) hheader hcount hdata
  rw [shownText, if_pos hscheme, hunpacked]
  exact congrArg (fun s => some (ascii "\"" ++ s ++ ascii "\"\n")) (countedText_cstr hno [])

end

section

variable {κ : Type} {text number : Bytes} {dest : LgsmSms} {askDs stat : Int32} {id : UInt16}
  {gu : ℕ}

theorem cmgwText_no_nul (src : GsmdSmsSubmit) (n : ℕ) : ∀ c ∈ cmgwText src n, c ≠ 0 := by
  have hhex : ∀ c ∈ hexText (submitPdu src), c ≠ 0 := by
    rintro c hc rfl
    have hdigit := hexOctets_digits (hexOctets_hexText (submitPdu src)) 0 hc
    exact absurd hdigit (by decide)
  intro c hc
  simp only [cmgwText, List.mem_append, List.mem_cons, List.not_mem_nil, or_false] at hc
  rcases hc with hc | hc | rfl | hc | rfl | hc | rfl
  · exact @no_nul_of_all (ascii "AT+CMGW=") rfl c hc
  · exact decimal_ne rfl _ c hc
  · decide
  · exact decimal_ne rfl _ c hc
  · decide
  · exact hhex c hc
  · decide

/-- A text written to the card by one client is what another client shows: every text of 1 to 160
characters, also where the seven bits behind it count as one. -/
theorem stored_text_shown (htext : ∀ c ∈ text, 1 ≤ c ∧ c ≤ 127) (hne : text ≠ [])
    (hlen : text.length ≤ 160) (hnumber : IsNumber (cstr number))
    (hstat : (intByte stat.toInt).toNat ≤ 4) : ∃ message order,
      ((LgsmCall.smsWrite stat (textSms text number dest askDs)).run id true true).message =
        some message ∧
      (∀ block client (stale : Memory), answer (usockRcvMessage false block gu client
        (stale.store 0 message) message.length) = some [order]) ∧
      order.cancel = false ∧ order.cb = some .smsWriteCb ∧
      ∀ (u : Unset) (cmd : GsmdAtcmd κ) behind, cmd.ret = 0 → ∃ ucmd,
        (smsReadCb u cmd (cmgrAnswer order.text ++ 0 :: behind)).bind CbOutcome.reply = some ucmd ∧
        ∀ stale : Memory, let sms := smsListAt (stale.store 0 ucmd.packet) sizeofHdr
          shownType (stale.store 0 ucmd.packet) sizeofHdr = msgtype[(intByte stat.toInt).toNat]? ∧
          shownNumber sms = cstr number ∧
            shownText sms = some (ascii "\"" ++ text ++ ascii "\"\n") := by
  obtain ⟨src, hsrc⟩ : ∃ src, src = (textSms text number dest askDs).submit := ⟨_, rfl⟩
  obtain ⟨n, hn⟩ : ∃ n, n = (intByte stat.toInt).toNat := ⟨_, rfl⟩
  have hfit (client : Client) :
      LgsmCall.Fits false client (.smsWrite stat (textSms text number dest askDs)) :=
    textSms_fits hlen hnumber
  have hproblem := prepare_problem true (.smsWrite stat (textSms text number dest askDs))
  rw [LgsmCall.problem, if_neg Bool.true_eq_false.mp, if_pos hnumber] at hproblem
  obtain ⟨-, gmh, check, hprepare, -⟩ := hproblem
  have horders : LgsmCall.orders false gu id (.smsWrite stat (textSms text number dest askDs)) =
      some [⟨false, cmgwText src n, some .smsWriteCb, gu, id.toNat⟩] := by
    rw [LgsmCall.orders, if_neg (Nat.not_lt.mpr hstat), commandText_cmgw, ← hsrc, ← hn, ask,
      cstr_of_no_nul (cmgwText_no_nul src n)]
  refine ⟨(gmh.numbered id).bytes, ⟨false, cmgwText src n, some .smsWriteCb, gu, id.toNat⟩, ?_,
    fun block client stale => ?_, rfl, rfl, ?_⟩
  · rw [LgsmCall.run, hprepare]
    rfl
  · rw [prepared_answered hprepare (hfit client), horders]
  · intro u cmd behind hret
    have hlength : src.payload.length ≠ 0 := by
      intro hzero
      have hcount := (@textSms_payload text number dest askDs hlen).1
      rw [← hsrc, hzero, (countedText_length text).1, packedLength] at hcount
      have hpos := List.length_pos_iff.mpr hne
      have hnone : (0 : UInt8).toNat = 0 := rfl
      omega
    have hscheme : src.payload.codingScheme ≠ alphabetUcs2 := by
      rw [hsrc]
      exact show alphabetDefault ≠ alphabetUcs2 by decide
    obtain ⟨dst, hreply⟩ := @smsReadCb_stored κ src n
      (hsrc ▸ textSms_submittable hlen hnumber) hscheme hlength
      (hsrc ▸ textSms_pdu hlen hnumber) u cmd hret (by omega) behind
    rw [cmgrAnswer_cmgw]
    refine ⟨_, hreply, fun stale => ?_⟩
    have hsame := sameList_reply stale u cmd n (readBack dst src)
    have htype := shownType_reply stale u cmd (n := n) (by omega) (readBack dst src)
    rw [hsrc] at hsame htype ⊢
    rw [← hn]
    exact ⟨htype, readBack_number hnumber hsame, readBack_shown htext hlen hsame⟩

theorem stored_text_shown_seven :
    let cmd : GsmdAtcmd Unit := ⟨0, 7, none, 0, 10, 9, 0, ascii "AT+CMGR=1" ++ [0]⟩
    ∃ order : Order, order.cb = some .smsWriteCb ∧
      ∃ ucmd, (smsReadCb zeroed cmd (cmgrAnswer order.text ++ [0])).bind CbOutcome.reply =
          some ucmd ∧
        shownText (smsListAt (Memory.zero.store 0 ucmd.packet) sizeofHdr) =
          some (ascii "\"ABCDEFG\"\n") := by
  intro cmd
  have hall : (ascii "ABCDEFG").all (fun c => 1 ≤ c ∧ c ≤ 127) = true := by decide
  have hnumber : IsNumber (cstr (ascii "+44123")) := by decide +kernel
  obtain ⟨-, order, -, -, -, hcb, hread⟩ := @stored_text_shown Unit (ascii "ABCDEFG")
    (ascii "+44123") ⟨0, Memory.zero, 0⟩ 0 2 9 7 (by simpa using hall) (by decide) (by decide)
    hnumber (by decide)
  have hret : cmd.ret = 0 := rfl
  obtain ⟨ucmd, hreply, hshown⟩ := hread zeroed cmd [] hret
  exact ⟨order, hcb, ucmd, hreply, (hshown Memory.zero).2.2⟩

end

end SystemTestSuite.Libgsmd
