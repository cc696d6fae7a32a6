import SystemTestSuite.GsmDaemon.HexReaders

namespace SystemTestSuite.GsmDaemon

open Library

inductive PduMessage where
  | cmt
  | cbm
  | cds
  deriving DecidableEq, Repr

variable {u : Unset} {k : PduMessage} {header param digits hex : Bytes} {n len : ℕ}

namespace PduMessage

def start : PduMessage → Bytes
  | cmt => ascii "+CMT:"
  | cbm => ascii "+CBM:"
  | cds => ascii "+CDS:"

def parse : PduMessage → Unset → Option Bytes → Option (Except ℤ InlinedEvent)
  | cmt => cmtParse
  | cbm => cbmParse
  | cds => cdsParse

def reader : PduMessage → HexReader Unit
  | cmt => .cmt
  | cbm => .cbm
  | cds => .cds

def number (param : Bytes) : PduMessage → Option Bytes
  | cmt => (strchr param 44).map fun comma => (cstr param).drop (comma + 1)
  | cbm | cds => some param

def ofHex (u : Unset) (len : ℤ) (hex : Bytes) : PduMessage → Option (Except ℤ InlinedEvent)
  | cmt => smsOfHex u gsmdEvtInSms len hex
  | cbm => cbmOfHex u len hex
  | cds => smsOfHex u gsmdEvtInDs len hex

end PduMessage

namespace PduMessage

def event (u : Unset) (len : ℤ) (pdu : Bytes) : PduMessage → Option InlinedEvent
  | cmt => (smsPduToMsg u.msg pdu len pdu.length).bind fun r =>
      if r.1 = 0 then some (.sms gsmdEvtInSms r.2) else none
  | cbm => (cbsPduToMsg pdu len pdu.length).bind fun r => r.toOption.map .cbm
  | cds => (smsPduToMsg u.msg pdu len pdu.length).bind fun r =>
      if r.1 = 0 then some (.sms gsmdEvtInDs r.2) else none

def Takes (k : PduMessage) (len : ℤ) (pdu : Bytes) : Prop := (k.event zeroed len pdu).isSome = true

instance decidableTakes (k : PduMessage) (len : ℤ) (pdu : Bytes) : Decidable (k.Takes len pdu) :=
  inferInstanceAs (Decidable (_ = true))

def lengthText (k : PduMessage) (header : Bytes) : Option Bytes :=
  (unsolicitedParam (cstr header) header.length).bind fun param => k.number param

def length (k : PduMessage) (header : Bytes) : ℤ :=
  toInt32 (strtoul ((k.lengthText header).getD [])).1

end PduMessage

structure AcceptedHeader (u : Unset) (k : PduMessage) (header : Bytes) : Prop where
  starts : k.start <+: header
  asks : k.parse u (unsolicitedParam (cstr header) header.length) = some (.error (-EAGAIN))

theorem strtoul_line (hno : ∀ b ∈ digits, b ≠ 0) (h : (strtoul digits).1 ≠ 0)
    (hhex : ∀ b ∈ hex, b ≠ 0) :
    strtoul (digits ++ LF :: hex) = ((strtoul digits).1, (strtoul digits).2 ++ LF :: hex) := by
  have hline : ∀ b ∈ digits ++ LF :: hex, b ≠ 0 := by
    intro b hb
    rcases List.mem_append.mp hb with hb | hb
    · exact hno b hb
    · rcases List.mem_cons.mp hb with rfl | hb
      · decide
      · exact hhex b hb
  unfold strtoul at h ⊢
  rw [cstr_of_no_nul hno] at h ⊢
  rw [cstr_of_no_nul hline]
  dsimp only at h ⊢
  obtain ⟨body, hbody⟩ : ∃ body, body = digits.dropWhile isSpace := ⟨_, rfl⟩
  obtain ⟨unsigned, hunsigned⟩ : ∃ unsigned, unsigned =
    if body.head? = some 45 ∨ body.head? = some 43 then body.tail else body := ⟨_, rfl⟩
  rw [← hbody, ← hunsigned] at h ⊢
  have hds : unsigned.takeWhile isDigit ≠ [] := by
    intro hds
    rw [if_pos hds] at h
    exact h rfl
  have hnil : body ≠ [] := by
    rintro rfl
    rw [hunsigned] at hds
    exact hds rfl
  have hskip : (digits ++ LF :: hex).dropWhile isSpace = body ++ LF :: hex := by
    rw [List.dropWhile_append, ← hbody]
    simp [hnil]
  have hhead : (body ++ LF :: hex).head? = body.head? := List.head?_append_of_ne_nil _ hnil
  have hrest : (if body.head? = some 45 ∨ body.head? = some 43 then body.tail ++ LF :: hex
      else body ++ LF :: hex) = unsigned ++ LF :: hex := by
    rw [hunsigned]
    split_ifs <;> rfl
  have hlf : isDigit LF = false := rfl
  have htake : (unsigned ++ LF :: hex).takeWhile isDigit = unsigned.takeWhile isDigit := by
    rw [List.takeWhile_append]
    split_ifs with hall
    · rw [List.takeWhile_cons, hlf, (List.takeWhile_prefix _).eq_of_length hall]
      exact List.append_nil _
    · rfl
  have hdrop : (unsigned ++ LF :: hex).dropWhile isDigit =
      unsigned.dropWhile isDigit ++ LF :: hex := by
    rw [List.dropWhile_append]
    split_ifs with hend
    · rw [List.isEmpty_iff.mp hend, List.dropWhile_cons, hlf]
      rfl
    · rfl
  rw [hskip, hhead, List.tail_append_of_ne_nil hnil, hrest, htake, hdrop, if_neg hds, if_neg hds]

theorem unsolicitedParam_start {text : Bytes} (hstart : k.start <+: text) (hno : ∀ b ∈ text, b ≠ 0)
    (len : ℕ) : unsolicitedParam text len = if 6 > len then none else some (text.drop 6) := by
  obtain ⟨rest, rfl⟩ := hstart
  have hcolon : strchr (k.start ++ rest) 58 = some 4 := by
    rw [strchr, cstr_of_no_nul hno]
    cases k <;> rfl
  rw [unsolicitedParam, hcolon, cstr_of_no_nul hno]
  rfl

theorem start_cstr (hstart : k.start <+: header) : k.start <+: cstr header := by
  obtain ⟨rest, rfl⟩ := hstart
  have hno : ∀ b ∈ k.start, b ≠ 0 := by
    cases k <;> exact no_nul_of_all rfl
  rw [cstr_append hno]
  exact List.prefix_append _ _

theorem number_no_nul (hno : ∀ b ∈ param, b ≠ 0) (h : k.number param = some digits) :
    ∀ b ∈ digits, b ≠ 0 := by
  cases k with
  | cmt =>
    obtain ⟨comma, -, rfl⟩ := Option.map_eq_some_iff.mp h
    exact fun b hb => cstr_ne_zero b (List.mem_of_mem_drop hb)
  | cbm =>
    obtain rfl := Option.some.inj h
    exact hno
  | cds =>
    obtain rfl := Option.some.inj h
    exact hno

theorem parse_number (h : k.number param = some digits) :
    k.parse u (some param) = match pduHeader digits with
      | .error rc => some (.error rc)
      | .ok (len, hex) => k.ofHex u len hex := by
  cases k with
  | cmt =>
    obtain ⟨comma, hcomma, rfl⟩ := Option.map_eq_some_iff.mp h
    have hheader : cmtHeader param = pduHeader ((cstr param).drop (comma + 1)) := by
      unfold cmtHeader
      rw [hcomma]
    rw [PduMessage.parse, cmtParse, Option.bind_some, hheader]
    rfl
  | cbm =>
    obtain rfl := Option.some.inj h
    rfl
  | cds =>
    obtain rfl := Option.some.inj h
    rfl

theorem parse_no_number (h : k.number param = none) :
    k.parse u (some param) = some (.error (-EINVAL)) := by
  cases k with
  | cmt =>
    have hcomma := Option.map_eq_none_iff.mp h
    have hheader : cmtHeader param = .error (-EINVAL) := by
      unfold cmtHeader
      rw [hcomma]
    rw [PduMessage.parse, cmtParse, Option.bind_some, hheader]
  | cbm => cases h
  | cds => cases h

variable {size : ℤ} {octets : Bytes}

theorem smsOfHex_cases {evt : ℕ} : smsOfHex u evt size hex = none ∨
    smsOfHex u evt size hex = some (.error (-EINVAL)) ∨
    ∃ e, smsOfHex u evt size hex = some (.ok e) := by
  unfold smsOfHex
  cases readHexPdu smsMaxPduSize hex with
  | none => exact Or.inr (Or.inl rfl)
  | some pdu =>
    dsimp only
    cases smsPduToMsg u.msg (pduArray u smsMaxPduSize pdu) size pdu.length with
    | none => exact Or.inl rfl
    | some r =>
      by_cases hrc : r.1 = 0
      · exact Or.inr (Or.inr ⟨.sms evt r.2, by simp [hrc]⟩)
      · exact Or.inr (Or.inl (by simp [hrc]))

theorem ofHex_cases (k : PduMessage) : k.ofHex u size hex = none ∨
    k.ofHex u size hex = some (.error (-EINVAL)) ∨ ∃ e, k.ofHex u size hex = some (.ok e) := by
  cases k with
  | cmt => exact smsOfHex_cases
  | cds => exact smsOfHex_cases
  | cbm =>
    rw [PduMessage.ofHex, cbmOfHex]
    cases readHexPdu cbmMaxPduSize hex with
    | none => exact Or.inr (Or.inl rfl)
    | some pdu =>
      dsimp only
      rcases cbsPduToMsg (pduArray u cbmMaxPduSize pdu) size pdu.length with _ | _ | msg
      · exact Or.inl rfl
      · exact Or.inr (Or.inl rfl)
      · exact Or.inr (Or.inr ⟨.cbm msg, rfl⟩)

theorem einval_ne_eagain {α : Type} :
    some (.error (-EINVAL)) ≠ some (.error (-EAGAIN) : Except ℤ α) := by
  intro h
  exact absurd (Except.error.inj (Option.some.inj h)) (by decide)

theorem ofHex_ne_again : k.ofHex u size hex ≠ some (.error (-EAGAIN)) := by
  intro hagain
  rcases @ofHex_cases u hex size k with h | h | ⟨e, h⟩
  · cases h.symm.trans hagain
  · exact einval_ne_eagain (h.symm.trans hagain)
  · cases h.symm.trans hagain

theorem ofHex_rejects : k.ofHex u size hex = some (.error (-EINVAL)) ↔
    ∀ pdu ∈ readHexPdu k.reader.size hex, k.reader.Refuses u size pdu := by
  cases k with
  | cmt => exact @smsOfHex_rejects Unit u _ size hex
  | cbm => exact cbmOfHex_rejects
  | cds => exact @smsOfHex_rejects Unit u _ size hex

theorem smsEvent_taken {evt : ℕ}
    (h : ((smsPduToMsg zeroed.msg octets size octets.length).bind fun r =>
      if r.1 = 0 then some (InlinedEvent.sms evt r.2) else none).isSome = true) (u : Unset)
    (hread : readHexPdu smsMaxPduSize hex = some octets) :
    ∃ e, ((smsPduToMsg u.msg octets size octets.length).bind fun r =>
      if r.1 = 0 then some (.sms evt r.2) else none) = some e ∧
        smsOfHex u evt size hex = some (.ok e) := by
  obtain ⟨e, he⟩ := Option.isSome_iff_exists.mp h
  obtain ⟨⟨rc, msg⟩, hr, hrc⟩ := Option.bind_eq_some_iff.mp he
  dsimp only at hrc
  split_ifs at hrc with hzero
  rw [hzero] at hr
  obtain ⟨msg', hr', -⟩ := (smsPduToMsg_alike zeroed.msg u.msg octets size octets.length).accepts hr
  refine ⟨.sms evt msg', by rw [hr']; rfl, ?_⟩
  rw [smsOfHex, hread]
  dsimp only
  rw [pduArray, smsPduToMsg_behind hr']
  rfl

theorem ofHex_taken (h : k.Takes size octets) (u : Unset)
    (hread : readHexPdu k.reader.size hex = some octets) :
    ∃ e, k.event u size octets = some e ∧ k.ofHex u size hex = some (.ok e) := by
  cases k with
  | cmt => exact smsEvent_taken h u hread
  | cds => exact smsEvent_taken h u hread
  | cbm =>
    obtain ⟨e, he⟩ := Option.isSome_iff_exists.mp h
    have hsize : octets.length = cbmMaxPduSize := by
      by_contra hne
      have hbad : (octets.length : ℤ) ≠ size ∨ (octets.length : ℤ) ≠ cbmMaxPduSize := by omega
      rw [PduMessage.event, cbsPduToMsg, if_pos hbad] at he
      cases he
    have harray : pduArray u cbmMaxPduSize octets = octets := by
      rw [pduArray, hsize, Nat.sub_self]
      exact List.append_nil _
    refine ⟨e, he, ?_⟩
    obtain ⟨r, hr, hmsg⟩ := Option.bind_eq_some_iff.mp he
    rw [PduMessage.ofHex, cbmOfHex, show readHexPdu cbmMaxPduSize hex = some octets from hread]
    dsimp only
    rw [harray, hr]
    cases r with
    | error _ => cases hmsg
    | ok msg =>
      obtain rfl := Option.some.inj hmsg
      rfl

theorem takes_pos (h : k.Takes size octets) : 1 ≤ size := by
  by_contra hlow
  have hsms (evt : ℕ) : ¬ ((smsPduToMsg zeroed.msg octets size octets.length).bind fun r =>
      if r.1 = 0 then some (InlinedEvent.sms evt r.2) else none).isSome = true := by
    intro hsome
    obtain ⟨e, he⟩ := Option.isSome_iff_exists.mp hsome
    obtain ⟨⟨rc, msg⟩, hr, hrc⟩ := Option.bind_eq_some_iff.mp he
    dsimp only at hrc
    split_ifs at hrc with hzero
    rw [smsPduToMsg, hzero] at hr
    split_ifs at hr
    · cases hr
    · obtain ⟨smsc, -, hr⟩ := Option.bind_eq_some_iff.mp hr
      rw [if_pos (Or.inr (by omega))] at hr
      cases hr
  cases k with
  | cmt => exact hsms gsmdEvtInSms h
  | cds => exact hsms gsmdEvtInDs h
  | cbm =>
    obtain ⟨e, he⟩ := Option.isSome_iff_exists.mp h
    have hbad : (octets.length : ℤ) ≠ size ∨ (octets.length : ℤ) ≠ cbmMaxPduSize := by
      rw [cbmMaxPduSize]
      omega
    rw [PduMessage.event, cbsPduToMsg, if_pos hbad] at he
    cases he

theorem pduHeader_cases (number : Bytes) :
    pduHeader number = .error (-EAGAIN) ∨ ∃ r, pduHeader number = .ok r := by
  unfold pduHeader
  cases (strtoul number).2 with
  | nil => exact Or.inl rfl
  | cons c hex =>
    dsimp only
    split_ifs
    · exact Or.inr ⟨_, rfl⟩
    · exact Or.inl rfl

theorem parse_error {rc : ℤ} (h : k.parse u (some param) = some (.error rc)) :
    rc = -EINVAL ∨ rc = -EAGAIN := by
  cases hnumber : k.number param with
  | none =>
    rw [parse_no_number hnumber] at h
    exact Or.inl (Except.error.inj (Option.some.inj h)).symm
  | some digits =>
    rw [parse_number hnumber] at h
    rcases pduHeader_cases digits with hheader | ⟨r, hheader⟩
    · rw [hheader] at h
      exact Or.inr (Except.error.inj (Option.some.inj h)).symm
    · rw [hheader] at h
      rcases @ofHex_cases u r.2 r.1 k with hof | hof | ⟨e, hof⟩
      · cases hof.symm.trans h
      · exact Or.inl (Except.error.inj (Option.some.inj (hof.symm.trans h))).symm
      · cases hof.symm.trans h

theorem AcceptedHeader.number_read (h : AcceptedHeader u k header) :
    6 ≤ header.length ∧ ∃ digits, k.number ((cstr header).drop 6) = some digits ∧
      k.lengthText header = some digits ∧ pduHeader digits = .error (-EAGAIN) := by
  have hasks := h.asks
  rw [PduMessage.lengthText]
  rw [unsolicitedParam_start (start_cstr h.starts) cstr_ne_zero] at hasks ⊢
  split_ifs at hasks ⊢ with hshort
  · cases k <;> cases hasks
  refine ⟨Nat.not_lt.mp hshort, ?_⟩
  cases hnumber : k.number ((cstr header).drop 6) with
  | none =>
    rw [parse_no_number hnumber] at hasks
    exact absurd hasks einval_ne_eagain
  | some digits =>
    refine ⟨digits, rfl, hnumber, ?_⟩
    rw [parse_number hnumber] at hasks
    cases hheader : pduHeader digits with
    | error rc =>
      rw [hheader] at hasks
      rw [Except.error.inj (Option.some.inj hasks)]
    | ok r =>
      rw [hheader] at hasks
      exact absurd hasks ofHex_ne_again

theorem parse_alone (h : AcceptedHeader u k header) (hlen : 6 ≤ len) :
    k.parse u (unsolicitedParam (cstr header) len) = some (.error (-EAGAIN)) := by
  have hasks := h.asks
  rw [unsolicitedParam_start (start_cstr h.starts) cstr_ne_zero] at hasks ⊢
  rw [if_neg (Nat.not_lt.mpr h.number_read.1)] at hasks
  rwa [if_neg (Nat.not_lt.mpr hlen)]

theorem number_line (hno : ∀ b ∈ param ++ LF :: hex, b ≠ 0) (h : k.number param = some digits) :
    k.number (param ++ LF :: hex) = some (digits ++ LF :: hex) := by
  have hparam : cstr param = param := cstr_of_no_nul (fun b hb => hno b (List.mem_append_left _ hb))
  cases k with
  | cmt =>
    obtain ⟨comma, hcomma, rfl⟩ := Option.map_eq_some_iff.mp h
    rw [strchr, hparam] at hcomma
    have hlt : comma < param.length := by
      obtain ⟨hlt, -⟩ := List.findIdx?_eq_some_iff_getElem.mp hcomma
      exact hlt
    have hfind : strchr (param ++ LF :: hex) 44 = some comma := by
      rw [strchr, cstr_of_no_nul hno, List.findIdx?_append, hcomma]
      rfl
    rw [PduMessage.number, hfind, Option.map_some, cstr_of_no_nul hno, hparam,
      List.drop_append_of_le_length hlt]
  | cbm =>
    obtain rfl := Option.some.inj h
    rfl
  | cds =>
    obtain rfl := Option.some.inj h
    rfl

theorem number_read_line (h : AcceptedHeader u k header) (hdigits : k.lengthText header = some digits)
    (hno : ∀ b ∈ header, b ≠ 0) (hhex : ∀ b ∈ hex, b ≠ 0) (hlen : 6 ≤ len) :
    ((unsolicitedParam (header ++ LF :: hex) len).bind fun param => k.number param) =
      some (digits ++ LF :: hex) := by
  obtain ⟨hsix, digits', hnumber, hdigits', -⟩ := h.number_read
  obtain rfl := Option.some.inj (hdigits'.symm.trans hdigits)
  rw [cstr_of_no_nul hno] at hnumber
  have hline : ∀ b ∈ LF :: hex, b ≠ 0 := by
    intro b hb
    rcases List.mem_cons.mp hb with rfl | hb
    · decide
    · exact hhex b hb
  have hall : ∀ b ∈ header ++ LF :: hex, b ≠ 0 := by
    intro b hb
    exact (List.mem_append.mp hb).elim (hno b) (hline b)
  have hstart : k.start <+: header ++ LF :: hex := h.starts.trans (List.prefix_append _ _)
  have hparam : ∀ b ∈ header.drop 6 ++ LF :: hex, b ≠ 0 := by
    intro b hb
    exact (List.mem_append.mp hb).elim (fun hb => hno b (List.mem_of_mem_drop hb)) (hline b)
  rw [unsolicitedParam_start hstart hall, if_neg (by omega), List.drop_append_of_le_length hsix]
  exact number_line hparam hnumber

end SystemTestSuite.GsmDaemon
