import SystemTestSuite.GsmDaemon.SmsCallbacks
import SystemTestSuite.GsmDaemon.SmsLonger
import SystemTestSuite.Library.Decimal

namespace SystemTestSuite.GsmDaemon

open Library

variable {κ : Type}

theorem readHexPdu_hex {hex octets : Bytes} (h : hexOctets hex = some octets) (fuel : ℕ)
    (rest : Bytes) : readHexPdu fuel (hex ++ rest) =
      (readHexPdu (fuel - octets.length) rest).map (octets.take fuel ++ ·) := by
  cases fuel with
  | zero => simp [readHexPdu]
  | succ fuel =>
    match hex with
    | [] =>
      obtain rfl : [] = octets := Option.some.inj h
      simp
    | [_] => cases h
    | a :: b :: hex =>
      obtain ⟨high, low, more, ha, hb, hrest, rfl⟩ := hexOctets_pair h
      have hpair : scanHexPair a b = some (UInt8.ofNat (16 * high + low)) := by
        rw [scanHexPair, ha, hb]
        rfl
      rw [List.cons_append, List.cons_append, readHexPdu, if_pos ⟨hexValue_ge ha, hexValue_ge hb⟩,
        hpair, readHexPdu_hex hrest fuel rest, List.length_cons, Nat.add_sub_add_right]
      cases readHexPdu (fuel - more.length) rest with
      | none => rfl
      | some extra => rfl

theorem readHexPdu_nul (fuel : ℕ) (text behind : Bytes) :
    readHexPdu fuel (text ++ 0 :: behind) = readHexPdu fuel text := by
  cases fuel with
  | zero => simp [readHexPdu]
  | succ fuel =>
    match text with
    | [] =>
      cases behind with
      | nil => rfl
      | cons b behind => rfl
    | [a] =>
      have hnul : ¬ (a ≥ 48 ∧ (0 : UInt8) ≥ 48) := fun h => absurd h.2 (by decide)
      exact if_neg hnul
    | a :: b :: text =>
      rw [List.cons_append, List.cons_append, readHexPdu, readHexPdu, readHexPdu_nul fuel text behind]

/-- An entry as the modem lists it in PDU mode: `+CMGL: <index>,<stat>,[<alpha>],<length>` and a
line with the PDU in hexadecimal. -/
structure CmglEntry where
  index : ℕ
  stat : ℕ
  alpha : Option Bytes
  pdulen : ℕ
  hex : Bytes
  pdu : Bytes
  index_int : index < 2 ^ 31
  stat_int : stat < 2 ^ 31
  pdulen_int : pdulen < 2 ^ 31
  alpha_text : ∀ text ∈ alpha, ∀ c ∈ text, c ≠ 0 ∧ c ≠ 34 ∧ c ≠ LF ∧ c ≠ CR
  hex_pdu : hexOctets hex = some pdu
  accepted : Accepts pdu pdulen

namespace CmglEntry

def start (e : CmglEntry) : Bytes :=
  ascii "+CMGL: " ++ (decimal e.index ++ 44 :: (decimal e.stat ++ [44]))

def alphaText (e : CmglEntry) : Bytes :=
  match e.alpha with
  | none => []
  | some text => 34 :: (text ++ [34])

def header (e : CmglEntry) : Bytes := e.start ++ (e.alphaText ++ 44 :: decimal e.pdulen)

def text (e : CmglEntry) : Bytes := e.header ++ LF :: e.hex

end CmglEntry

variable {e : CmglEntry} {rest : Bytes}

theorem endsNumber_cons {b : UInt8} (hdigit : isDigit b = false) (hx : b ≠ 120 ∧ b ≠ 88)
    (rest : Bytes) : EndsNumber (b :: rest) := by
  intro c hc
  obtain rfl := Option.some.inj hc
  exact ⟨hdigit, hx⟩

theorem digits_no_space (n : ℕ) (rest : Bytes) :
    ∀ b ∈ (decimal n ++ rest).head?, isSpace b = false :=
  fun b hb => digit_not_space (decimal_append_head n rest b hb)

def CmglEntry.scanned (e : CmglEntry) : List Scanned :=
  [.int e.index, .int e.stat, .int e.pdulen, .count (e.header.length + 1)]

def smsReply (u : Unset) (cmd : GsmdAtcmd κ) (msgSubtype : UInt8) (stat last : ℤ)
    (msg : GsmdSmsList) : GsmdUcmd :=
  (gsmdUcmdFill u.ucmd sizeofSmsList gsmdMsgSms msgSubtype cmd.msgId).store 0
    ((smsListMemory u.array stat (intBytes last) msg).slice 0 sizeofSmsList)

theorem smsPduReply_iff {u : Unset} {cmd : GsmdAtcmd κ} {msgSubtype index : UInt8} {stat len last : ℤ}
    {hex : Bytes} {ucmd : GsmdUcmd} (hlen : len ≤ 164) :
    (smsPduReply u cmd msgSubtype index stat len (intBytes last) hex).bind CbOutcome.reply =
        some ucmd ↔
      ∃ octets msg, readHexPdu smsMaxPduSize hex = some octets ∧
        smsPduToMsg { u.msg with index := index } octets len octets.length = some (0, msg) ∧
        smsReply u cmd msgSubtype stat last msg = ucmd := by
  unfold smsPduReply
  cases hhex : readHexPdu smsMaxPduSize hex with
  | none => simp
  | some octets =>
    obtain ⟨array, harray⟩ : ∃ array, array =
        u.array.slice octets.length (smsMaxPduSize - octets.length) := ⟨_, rfl⟩
    have hbehind (msg : GsmdSmsList) :=
      @smsPduToMsg_behind_iff { u.msg with index := index } msg octets len hlen array
    simp only [Option.some.injEq, exists_and_left, exists_eq_left', ← hbehind, ← harray]
    cases hr : smsPduToMsg { u.msg with index := index } (octets ++ array) len octets.length with
    | none => simp
    | some r =>
      obtain ⟨rc, msg⟩ := r
      by_cases hrc : rc = 0
      · simp [hrc, smsReply]
      · simp [hrc]

theorem smsReply_buf (u : Unset) (cmd : GsmdAtcmd κ) (msgSubtype : UInt8) (stat last : ℤ)
    (msg : GsmdSmsList) {i : ℕ} (hi : i < sizeofSmsList) :
    (smsReply u cmd msgSubtype stat last msg).buf i =
      smsListMemory u.array stat (intBytes last) msg i := by
  have hlen : i < ((smsListMemory u.array stat (intBytes last) msg).slice 0 sizeofSmsList).length := by
    rwa [Memory.slice_length]
  have hinside := Memory.store_inside u.ucmd.buf 0 _ hlen
  rw [Memory.slice_getElem, Nat.zero_add] at hinside
  exact hinside

/-- With the bytes behind the entry the PDU is read as it would be without them. -/
def Unspoilt (e : CmglEntry) (rest : Bytes) : Prop :=
  ∃ extra ∈ readHexPdu (smsMaxPduSize - e.pdu.length) rest,
    Accepts (e.pdu.take smsMaxPduSize ++ extra) e.pdulen ∧
      (IsReport e.pdu → (e.pdu.take smsMaxPduSize ++ extra).getLast? = e.pdu.getLast?)

def Readable (e : CmglEntry) (rest : Bytes) : Prop :=
  e.alpha ≠ some [] ∧ e.pdulen ≤ 164 ∧ Unspoilt e rest

theorem readHexPdu_length {fuel : ℕ} {hex octets : Bytes} (h : readHexPdu fuel hex = some octets) :
    octets.length ≤ fuel := by
  match fuel, hex with
  | 0, _ =>
    obtain rfl : [] = octets := Option.some.inj h
    exact le_refl _
  | fuel + 1, a :: b :: hex =>
    rw [readHexPdu] at h
    split_ifs at h
    · simp only [Option.bind_eq_bind, Option.bind_eq_some_iff] at h
      obtain ⟨octet, _, more, hmore, heq⟩ := h
      rw [← Option.some.inj heq, List.length_cons]
      exact Nat.succ_le_succ (readHexPdu_length hmore)
    · rw [← Option.some.inj h]
      exact Nat.zero_le _
  | fuel + 1, [] | fuel + 1, [_] =>
    obtain rfl : [] = octets := Option.some.inj h
    exact Nat.zero_le _

end SystemTestSuite.GsmDaemon
