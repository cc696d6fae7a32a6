import SystemTestSuite.GsmDaemon.SmsRead
import SystemTestSuite.Libgsmd.SevenBit

namespace SystemTestSuite.Libgsmd

open Library GsmDaemon

variable {dst d msg : GsmdSmsList} {src : Bytes} {sms : GsmdSms}

def FitsPayload (sms : GsmdSms) : Prop :=
  ∃ out ret, unpacking7bitCharacter sms = some (out, ret) ∧ out.length ≤ gsmdSmsDataMaxlen

def headerSeptets (sms : GsmdSms) : ℕ :=
  if sms.hasHeader ≠ 0 then (((sms.data 0).toNat <<< 3) + 14) / 7 else 0

/-- What `sms_pdu_to_msg` takes for TP-UDL and TP-UD, nothing for a status report. It skips one octet
of TP-VP for every TP-VPF other than 0, so that of a TP-VP of seven octets the second is taken for
TP-UDL. -/
def userDataPart (src : Bytes) : Bytes :=
  let tpdu := src.drop (1 + (src.headD 0).toNat)
  let first := tpdu.headD 0
  if first &&& 3 = tpMtiDeliver then tpdu.drop (12 + ((tpdu.getD 1 0).toNat + 1) / 2)
  else if first &&& 3 = tpMtiSubmit then
    tpdu.drop ((if (first >>> 3) &&& 3 ≠ 0 then 7 else 6) + ((tpdu.getD 2 0).toNat + 1) / 2)
  else []

def hasUserDataHeader (src : Bytes) : Prop :=
  (src.drop (1 + (src.headD 0).toNat)).headD 0 &&& tpUdhiWithHeader ≠ 0

instance (src : Bytes) : Decidable (hasUserDataHeader src) :=
  inferInstanceAs (Decidable (_ ≠ _))

/-- The characters that the octet taken for TP-UDL counts, less those of the user data header. -/
def textSeptets (src : Bytes) : ℕ :=
  match userDataPart src with
  | [] => 0
  | udl :: ud =>
    udl.toNat - if hasUserDataHeader src then (((ud.headD 0).toNat <<< 3) + 14) / 7 else 0

theorem unpackedAt_some {i : ℕ} (h : (i * 7 + 7) / 8 < gsmdSmsDataMaxlen + 1) :
    ∃ c, unpackedAt sms i = some c := by
  have hlow : i * 7 / 8 < gsmdSmsDataMaxlen + 1 := by omega
  simp only [unpackedAt, dataOctet, Nat.shiftRight_eq_div_pow, Nat.reducePow, if_pos h, if_pos hlow]
  exact ⟨_, rfl⟩

theorem unpackingStart_eq (sms : GsmdSms) : unpackingStart sms = some (headerSeptets sms) := by
  rw [unpackingStart, headerSeptets]
  split_ifs <;> rfl

theorem fitsPayload_iff (h : (7 * sms.length.toNat + 7) / 8 ≤ gsmdSmsDataMaxlen) :
    FitsPayload sms ↔ sms.length.toNat - headerSeptets sms < gsmdSmsDataMaxlen := by
  have hall : ∀ i ∈ List.range' (headerSeptets sms) (sms.length.toNat - headerSeptets sms),
      ∃ c, unpackedAt sms i = some c := by
    intro i hi
    obtain ⟨hle, hlt⟩ := List.mem_range'_1.mp hi
    exact unpackedAt_some (by omega)
  obtain ⟨chars, hchars, hlen⟩ := exists_mapM hall
  rw [List.length_range'] at hlen
  have heq : unpacking7bitCharacter sms =
      some (chars ++ [0], max (headerSeptets sms) sms.length.toNat) := by
    rw [unpacking7bitCharacter, unpackingStart_eq]
    simp only [Option.bind_eq_bind, Option.bind_some, hchars]
    rfl
  simp only [FitsPayload, heq, Option.some.injEq, Prod.mk.injEq]
  constructor
  · rintro ⟨out, ret, ⟨rfl, -⟩, hfit⟩
    rw [List.length_append, List.length_singleton, hlen] at hfit
    omega
  · intro hfit
    refine ⟨_, _, ⟨rfl, rfl⟩, ?_⟩
    rw [List.length_append, List.length_singleton, hlen]
    omega

structure HasUserData (body : Bytes) (hasHeader : ℤ) (sms : GsmdSms) : Prop where
  header : sms.hasHeader = hasHeader
  length : sms.length = body.headD 0
  first : sms.length ≠ 0 → sms.data 0 = body.getD 1 0
  room : (7 * sms.length.toNat + 7) / 8 ≤ gsmdSmsDataMaxlen

theorem tpUserData_accepts {body : Bytes} {len : ℤ}
    (h : tpUserData d body len = some (0, msg))
    (hscheme : msg.payload.codingScheme = alphabetDefault) :
    HasUserData body d.payload.hasHeader msg.payload := by
  cases body with
  | nil => cases h
  | cons udl ud =>
    simp only [tpUserData, List.getElem?_cons_zero, Option.bind_eq_bind, Option.bind_some] at h
    split_ifs at h with hbad
    · simp at h
    obtain ⟨hshort, hroom⟩ := not_or.mp hbad
    obtain ⟨data, hdata, hmsg⟩ := Option.bind_eq_some_iff.mp h
    obtain rfl : _ = msg := congrArg Prod.snd (Option.some.inj hmsg)
    have hdefault : d.payload.codingScheme = alphabetDefault := hscheme
    have hbytes : smsDataBytelen d.payload.codingScheme udl = (7 * udl.toNat + 7) / 8 := by
      rw [hdefault, smsDataBytelen, if_pos rfl, Nat.shiftRight_eq_div_pow, Nat.mul_comm]
    rw [hbytes] at hdata hroom
    refine ⟨rfl, rfl, fun hudl => ?_, not_lt.mp hroom⟩
    have hpos : 0 < (7 * udl.toNat + 7) / 8 := by
      have hne : udl.toNat ≠ 0 := fun hzero => hudl (UInt8.toNat_inj.mp hzero)
      omega
    have hall : 1 + (7 * udl.toNat + 7) / 8 ≤ (udl :: ud).length := by
      by_contra hnot
      rw [readOctets, if_neg hnot] at hdata
      cases hdata
    rw [readOctets, if_pos hall] at hdata
    obtain rfl : _ = data := Option.some.inj hdata
    obtain ⟨b, ud, rfl⟩ := List.exists_cons_of_length_pos
      (show 0 < ud.length by rw [List.length_cons] at hall; omega)
    obtain ⟨k, hk⟩ := Nat.exists_eq_succ_of_ne_zero hpos.ne'
    simp [hbytes, hk, Memory.store]

theorem HasUserData.fitsPayload_iff {body : Bytes} {hasHeader : ℤ}
    (h : HasUserData body hasHeader sms) : FitsPayload sms ↔
      (body.headD 0).toNat - (if hasHeader ≠ 0 then (((body.getD 1 0).toNat <<< 3) + 14) / 7 else 0) <
        gsmdSmsDataMaxlen := by
  rw [Libgsmd.fitsPayload_iff h.room, headerSeptets, h.header, ← h.length]
  by_cases hzero : sms.length = 0
  · simp [hzero, gsmdSmsDataMaxlen]
  · rw [h.first hzero]

theorem pduDeliver_accepts {tpdu : Bytes} (h : pduDeliver d tpdu tpdu.length = some (0, msg)) :
    ∃ d', d'.payload.hasHeader = d.payload.hasHeader ∧
      tpUserData d' (tpdu.drop (12 + ((tpdu.getD 1 0).toNat + 1) / 2))
        (tpdu.drop (12 + ((tpdu.getD 1 0).toNat + 1) / 2)).length = some (0, msg) := by
  rcases pduDeliver_cases d tpdu with hreject | ⟨first, n, type, address, pid, scheme, stamp, body,
    number, rfl, hi, hstamp, -, -, hread⟩
  · rw [hreject] at h
    simp at h
  have hdrop : (first :: n :: type :: (address ++ pid :: scheme :: (stamp ++ body))).drop
      (12 + (n.toNat + 1) / 2) = body := by
    have hlen : 12 + (n.toNat + 1) / 2 =
        (first :: n :: type :: (address ++ pid :: scheme :: stamp)).length := by
      simp only [List.length_cons, List.length_append, hi, hstamp]
      omega
    have happend : first :: n :: type :: (address ++ pid :: scheme :: (stamp ++ body)) =
        (first :: n :: type :: (address ++ pid :: scheme :: stamp)) ++ body := by simp
    rw [hlen, happend, List.drop_left]
  rw [hread] at h
  cases hdcs : tpDcs scheme with
  | none =>
    rw [hdcs] at h
    simp at h
  | some codingScheme =>
    rw [hdcs] at h
    have hdigits : (first :: n :: type ::
        (address ++ pid :: scheme :: (stamp ++ body))).getD 1 0 = n := rfl
    rw [hdigits, hdrop]
    refine ⟨_, ?_, h⟩
    rfl

theorem pduSubmit_accepts {tpdu : Bytes} {vpf : UInt8}
    (h : pduSubmit d vpf tpdu tpdu.length = some (0, msg)) :
    ∃ d', d'.payload.hasHeader = d.payload.hasHeader ∧
      tpUserData d' (tpdu.drop ((if vpf ≠ 0 then 7 else 6) + ((tpdu.getD 2 0).toNat + 1) / 2))
        (tpdu.drop ((if vpf ≠ 0 then 7 else 6) + ((tpdu.getD 2 0).toNat + 1) / 2)).length =
          some (0, msg) := by
  rcases pduSubmit_cases d vpf tpdu with hreject | ⟨flags, reference, n, type, address, pid, scheme,
    tail, number, rfl, hi, -, -, hread⟩
  · rw [hreject] at h
    simp at h
  have hdrop : (flags :: reference :: n :: type :: (address ++ pid :: scheme :: tail)).drop
      ((if vpf ≠ 0 then 7 else 6) + (n.toNat + 1) / 2) =
      if vpf ≠ 0 then tail.drop 1 else tail := by
    have hlen : (flags :: reference :: n :: type :: (address ++ [pid, scheme])).length =
        6 + (n.toNat + 1) / 2 := by
      simp only [List.length_cons, List.length_append, hi, List.length_nil]
      omega
    have happend : flags :: reference :: n :: type :: (address ++ pid :: scheme :: tail) =
        (flags :: reference :: n :: type :: (address ++ [pid, scheme])) ++ tail := by simp
    rw [happend]
    split_ifs
    · rw [show 7 + (n.toNat + 1) / 2 = (6 + (n.toNat + 1) / 2) + 1 by omega, ← hlen,
        List.drop_append, List.drop_eq_nil_of_le (by omega), Nat.add_sub_cancel_left,
        List.nil_append]
    · rw [← hlen, List.drop_left]
  rw [hread] at h
  cases hdcs : tpDcs scheme with
  | none =>
    rw [hdcs] at h
    simp at h
  | some codingScheme =>
    rw [hdcs] at h
    have hdigits : (flags :: reference :: n :: type ::
        (address ++ pid :: scheme :: tail)).getD 2 0 = n := rfl
    rw [hdigits, hdrop]
    refine ⟨_, ?_, h⟩
    rfl

theorem pduStatusReport_accepts {tpdu : Bytes} {len : ℤ}
    (h : pduStatusReport d tpdu len = some (0, msg)) :
    HasUserData [] d.payload.hasHeader msg.payload := by
  rw [pduStatusReport] at h
  split_ifs at h with hlen
  · simp at h
  simp only [Option.bind_eq_bind, Option.bind_eq_some_iff] at h
  obtain ⟨reference, -, status, -, toa, -, digits, -, h⟩ := h
  split_ifs at h with hshort
  · simp at h
  obtain ⟨addr, -, h⟩ := Option.bind_eq_some_iff.mp h
  split_ifs at h with hbad
  · simp at h
  obtain ⟨stamp, -, h⟩ := Option.bind_eq_some_iff.mp h
  obtain rfl : _ = msg := congrArg Prod.snd (Option.some.inj h)
  have hroom : (7 * (0 : UInt8).toNat + 7) / 8 ≤ gsmdSmsDataMaxlen := by decide
  exact ⟨rfl, rfl, fun hzero => absurd rfl hzero, hroom⟩

theorem pduOfType_accepts {first : UInt8} {body : Bytes}
    (h : pduOfType d first (first :: body) (first :: body).length = some (0, msg))
    (hscheme : msg.payload.codingScheme = alphabetDefault) :
    HasUserData
      (if first &&& 3 = tpMtiDeliver then
        (first :: body).drop (12 + (((first :: body).getD 1 0).toNat + 1) / 2)
      else if first &&& 3 = tpMtiSubmit then
        (first :: body).drop ((if (first >>> 3) &&& 3 ≠ 0 then 7 else 6) +
          (((first :: body).getD 2 0).toNat + 1) / 2)
      else []) d.payload.hasHeader msg.payload := by
  rw [pduOfType] at h
  by_cases hdeliver : first &&& 3 = tpMtiDeliver
  · rw [if_pos hdeliver] at h ⊢
    obtain ⟨d', hheader, hread⟩ := pduDeliver_accepts h
    rw [← hheader]
    exact tpUserData_accepts hread hscheme
  by_cases hsubmit : first &&& 3 = tpMtiSubmit
  · rw [if_neg hdeliver, if_pos hsubmit] at h ⊢
    obtain ⟨d', hheader, hread⟩ := pduSubmit_accepts h
    rw [← hheader]
    exact tpUserData_accepts hread hscheme
  by_cases hreport : first &&& 3 = tpMtiStatusReport
  · rw [if_neg hdeliver, if_neg hsubmit, if_pos hreport] at h
    rw [if_neg hdeliver, if_neg hsubmit]
    exact pduStatusReport_accepts h
  · rw [if_neg hdeliver, if_neg hsubmit, if_neg hreport] at h
    simp at h

theorem smsPduToMsg_accepts {pdulen : ℤ}
    (h : smsPduToMsg dst src pdulen src.length = some (0, msg)) :
    ∃ smsc rest first body, src = smsc :: rest ∧ rest.drop smsc.toNat = first :: body ∧
      pduOfType (beforeType dst first) first (first :: body) (first :: body).length =
        some (0, msg) := by
  cases src with
  | nil => simp [smsPduToMsg] at h
  | cons smsc rest =>
    rw [smsPduToMsg_cons] at h
    split_ifs at h
    · cases h
    cases hrest : rest.drop smsc.toNat with
    | nil =>
      rw [hrest] at h
      cases h
    | cons first body =>
      rw [hrest] at h
      exact ⟨smsc, rest, first, body, rfl, hrest, h⟩

theorem accepted_hasUserData {pdulen : ℤ}
    (h : smsPduToMsg dst src pdulen src.length = some (0, msg))
    (hscheme : msg.payload.codingScheme = alphabetDefault) :
    HasUserData (userDataPart src) (if hasUserDataHeader src then 1 else 0) msg.payload := by
  obtain ⟨smsc, rest, first, body, rfl, hrest, hread⟩ := smsPduToMsg_accepts h
  have htpdu : (smsc :: rest).drop (1 + ((smsc :: rest).headD 0).toNat) = first :: body := by
    rw [Nat.add_comm]
    exact hrest
  have hheader : hasUserDataHeader (smsc :: rest) ↔ first &&& tpUdhiWithHeader ≠ 0 := by
    rw [hasUserDataHeader, htpdu]
    rfl
  rw [if_congr hheader rfl rfl, userDataPart, htpdu]
  exact pduOfType_accepts hread hscheme

theorem fitsPayload_iff_textSeptets {pdulen : ℤ}
    (h : smsPduToMsg dst src pdulen src.length = some (0, msg))
    (hscheme : msg.payload.codingScheme = alphabetDefault) :
    FitsPayload msg.payload ↔ textSeptets src < gsmdSmsDataMaxlen := by
  rw [(accepted_hasUserData h hscheme).fitsPayload_iff, textSeptets]
  cases userDataPart src with
  | nil => simp
  | cons udl ud =>
    have hfirst : (udl :: ud).getD 1 0 = ud.headD 0 := by cases ud <;> rfl
    have hflag : (if hasUserDataHeader src then (1 : ℤ) else 0) ≠ 0 ↔ hasUserDataHeader src := by
      split_ifs with hheader
      · exact iff_of_true one_ne_zero hheader
      · exact iff_of_false (not_not_intro rfl) hheader
    rw [hfirst, if_congr hflag rfl rfl]
    rfl

def septetsPdu (udl : UInt8) : Bytes :=
  [0x00, 0x04, 0x00, 0x81, 0x00, 0x00, 0x70, 0x10, 0x12, 0x01, 0x00, 0x00, 0x00, udl] ++
    List.replicate ((7 * udl.toNat + 7) / 8) 0

theorem exists_accepted {r : Option (ℤ × GsmdSmsList)} {scheme udl : UInt8} {hasHeader : ℤ}
    (h : r.map (fun r => (r.1, r.2.payload.codingScheme, r.2.payload.length, r.2.payload.hasHeader)) =
      some (0, scheme, udl, hasHeader)) :
    ∃ msg, r = some (0, msg) ∧ msg.payload.codingScheme = scheme ∧ msg.payload.length = udl ∧
      msg.payload.hasHeader = hasHeader := by
  obtain ⟨⟨ret, msg⟩, rfl, hmsg⟩ := Option.map_eq_some_iff.mp h
  simp only [Prod.mk.injEq] at hmsg
  obtain ⟨rfl, rfl, rfl, rfl⟩ := hmsg
  exact ⟨msg, rfl, rfl, rfl, rfl⟩

theorem fitsPayload_short :
    ∃ msg, smsPduToMsg blankSmsList (septetsPdu 2) 15 16 = some (0, msg) ∧
      FitsPayload msg.payload := by
  obtain ⟨msg, hread, hscheme, -, -⟩ := @exists_accepted
    (smsPduToMsg blankSmsList (septetsPdu 2) 15 16) 0 2 0 (by decide)
  exact ⟨msg, hread, (fitsPayload_iff_textSeptets hread hscheme).mpr (by decide)⟩

theorem fitsPayload_overrun :
    ∃ msg, smsPduToMsg blankSmsList (septetsPdu 187) 177 178 = some (0, msg) ∧
      msg.payload.codingScheme = alphabetDefault ∧ ¬ FitsPayload msg.payload := by
  obtain ⟨msg, hread, hscheme, hlength, hheader⟩ := @exists_accepted
    (smsPduToMsg blankSmsList (septetsPdu 187) 177 178) 0 187 0 (by decide +kernel)
  refine ⟨msg, hread, hscheme, ?_⟩
  rw [fitsPayload_iff (by rw [hlength]; decide), headerSeptets, hheader, hlength,
    if_neg (not_not_intro rfl)]
  decide

end SystemTestSuite.Libgsmd
