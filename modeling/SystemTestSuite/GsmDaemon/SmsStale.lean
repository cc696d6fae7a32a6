import SystemTestSuite.GsmDaemon.SmsRead
import SystemTestSuite.Library.TwoRuns

namespace SystemTestSuite.GsmDaemon

open Library

variable {dst dst' msg msg' : GsmdSmsList}

def GsmdSms.userData (s : GsmdSms) : Bytes :=
  s.data.slice 0 (smsDataBytelen s.codingScheme s.length)

structure SameFields (msg msg' : GsmdSmsList) : Prop where
  type : msg.addr.type = msg'.addr.type
  number : msg.addr.text = msg'.addr.text
  timeStamp : msg.timeStamp.slice 0 7 = msg'.timeStamp.slice 0 7
  hasHeader : msg.payload.hasHeader = msg'.payload.hasHeader
  isVoicemail : msg.payload.isVoicemail = msg'.payload.isVoicemail
  codingScheme : msg.payload.codingScheme = msg'.payload.codingScheme
  length : msg.payload.length = msg'.payload.length
  data : msg.payload.userData = msg'.payload.userData

structure SameHeader (msg msg' : GsmdSmsList) : Prop where
  hasHeader : msg.payload.hasHeader = msg'.payload.hasHeader
  isVoicemail : msg.payload.isVoicemail = msg'.payload.isVoicemail

def SameAddress (addr addr' : GsmdAddr) : Prop := addr.type = addr'.type ∧ addr.text = addr'.text

theorem text_stored (m m' : Memory) {number : Bytes} {size : ℕ} (h : number.length < size) :
    ((m.store 0 number).store number.length [0]).text size =
      ((m'.store 0 number).store number.length [0]).text size := by
  have hnul (m : Memory) : ((m.store 0 number).store number.length [0]) number.length = 0 :=
    Memory.store_inside _ _ [0] (Nat.zero_lt_one)
  apply Memory.text_congr_nul h (hnul m)
  intro i hi
  rcases lt_or_eq_of_le hi with hlt | rfl
  · rw [Memory.store_before _ _ hlt, Memory.store_before _ _ hlt]
    exact Memory.store_over _ (Nat.zero_le i) (by omega)
  · rw [hnul m, hnul m']

theorem smsAddress2ascii_alike (addr addr' : GsmdAddr) (src : Bytes) :
    Alike SameAddress (smsAddress2ascii addr src) (smsAddress2ascii addr' src) := by
  unfold smsAddress2ascii
  apply Alike.bind
  intro n _
  apply Alike.guard one_ne_zero
  intro hn
  apply Alike.bind
  intro type _
  dsimp only
  have hstored {number : Bytes} (hlen : number.length ≤ n.toNat) : Alike SameAddress
      (some (0, ⟨type, (addr.number.store 0 number).store number.length [0]⟩))
      (some (0, ⟨type, (addr'.number.store 0 number).store number.length [0]⟩)) := by
    have hmax : number.length < gsmdAddrMaxlen + 1 := by omega
    exact .returns (fun _ => ⟨rfl, text_stored _ _ hmax⟩)
  apply Alike.ite
  · intro _
    apply Alike.bind
    intro number hnumber
    apply hstored
    rw [mapM_length hnumber]
    refine (List.takeWhile_prefix _).length_le.trans ?_
    rw [List.length_range]
  · intro _
    apply Alike.bind
    intro number hnumber
    apply hstored
    rw [mapM_length hnumber, List.length_range]

structure SameFront (msg msg' : GsmdSmsList) : Prop where
  address : SameAddress msg.addr msg'.addr
  timeStamp : msg.timeStamp.slice 0 7 = msg'.timeStamp.slice 0 7
  header : SameHeader msg msg'
  codingScheme : msg.payload.codingScheme = msg'.payload.codingScheme

theorem tpUserData_alike (h : SameFront dst dst') (src : Bytes) (len : ℤ) :
    Alike (fun msg msg' => SameFields msg msg' ∧ msg.payload.dcs = dst.payload.dcs ∧
      msg'.payload.dcs = dst'.payload.dcs) (tpUserData dst src len) (tpUserData dst' src len) := by
  have hscheme := h.codingScheme
  unfold tpUserData
  apply Alike.bind
  intro udl _
  dsimp only
  rw [hscheme]
  apply Alike.guard one_ne_zero
  intro _
  apply Alike.bind
  intro data hdata
  have hlen := readOctets_length hdata
  have hstored (m : Memory) : ((m.store 0 data).store
      (smsDataBytelen dst'.payload.codingScheme udl) [0]).slice 0
        (smsDataBytelen dst'.payload.codingScheme udl) = data := by
    have hend := Memory.slice_store_end m 0 data [0]
    rwa [Nat.zero_add, hlen] at hend
  exact .returns (fun _ => ⟨⟨h.address.1, h.address.2, h.timeStamp, h.header.hasHeader,
    h.header.isVoicemail, rfl, rfl, (hstored _).trans (hstored _).symm⟩, rfl, rfl⟩)

theorem stamp_stored (m m' : Memory) {src stamp : Bytes} {off : ℕ}
    (h : readOctets src off 7 = some stamp) :
    (m.store 0 stamp).slice 0 7 = (m'.store 0 stamp).slice 0 7 := by
  rw [← readOctets_length h, Memory.slice_store_same, Memory.slice_store_same]

theorem address_alike {R : GsmdSmsList → GsmdSmsList → Prop} {x x' : ℤ × GsmdAddr → GsmdSmsList} (src : Bytes)
    (len : ℤ) (i j k : ℕ) (n : ℤ) {rest rest' : UInt8 → UInt8 → ℤ × GsmdAddr → Option (ℤ × GsmdSmsList)}
    (hrest : ∀ toa digits addr addr', SameAddress addr addr' →
      Alike R (rest toa digits (0, addr)) (rest' toa digits (0, addr'))) :
    Alike R
      (src[i]?.bind fun toa => src[j]?.bind fun digits =>
        if len < n + smsNumberBytelen toa digits then some (1, dst)
        else (smsAddress2ascii dst.addr (src.drop k)).bind fun addr =>
          if addr.1 ≠ 0 then some (1, x addr) else rest toa digits addr)
      (src[i]?.bind fun toa => src[j]?.bind fun digits =>
        if len < n + smsNumberBytelen toa digits then some (1, dst')
        else (smsAddress2ascii dst'.addr (src.drop k)).bind fun addr =>
          if addr.1 ≠ 0 then some (1, x' addr) else rest' toa digits addr) := by
  apply Alike.bind
  intro toa _
  apply Alike.bind
  intro digits _
  apply Alike.guard one_ne_zero
  intro _
  apply Alike.bind_alike (smsAddress2ascii_alike _ _ _)
  intro ret addr addr' haddr
  apply Alike.guard one_ne_zero
  intro hret
  obtain rfl := not_not.mp hret
  exact hrest toa digits addr addr' (haddr rfl)

theorem pduDeliver_alike (h : SameHeader dst dst') (src : Bytes) (len : ℤ) :
    Alike (fun msg msg' => SameFields msg msg' ∧ msg.payload.dcs = msg'.payload.dcs)
      (pduDeliver dst src len) (pduDeliver dst' src len) := by
  unfold pduDeliver
  apply Alike.guard one_ne_zero
  intro _
  apply address_alike src len 2 1 1 13
  intro toa digits addr addr' haddr
  apply Alike.bind
  intro pid _
  apply Alike.bind
  intro data _
  dsimp only
  cases tpDcs data with
  | none => exact .rejects one_ne_zero
  | some codingScheme =>
    apply Alike.bind
    intro stamp hstamp
    refine (tpUserData_alike ?_ _ _).mono ?_
    · refine ⟨haddr, stamp_stored _ _ hstamp, ⟨h.hasHeader, ?_⟩, rfl⟩
      dsimp only
      rw [h.isVoicemail]
    · exact fun msg msg' hsame => ⟨hsame.1, hsame.2.1.trans hsame.2.2.symm⟩

theorem pduSubmit_alike (h : SameHeader dst dst') (vpf : UInt8) (src : Bytes) (len : ℤ) :
    Alike (fun msg msg' => SameFields msg msg' ∧ msg.payload.dcs = dst.payload.dcs ∧
      msg'.payload.dcs = dst'.payload.dcs) (pduSubmit dst vpf src len)
      (pduSubmit dst' vpf src len) := by
  unfold pduSubmit
  apply Alike.guard one_ne_zero
  intro _
  apply address_alike src len 3 2 2 8
  intro toa digits addr addr' haddr
  apply Alike.bind
  intro data _
  dsimp only
  cases tpDcs data with
  | none => exact .rejects one_ne_zero
  | some codingScheme =>
    have hfill (m : Memory) : (m.fill 0 7 0).slice 0 7 = List.replicate 7 0 := rfl
    refine (tpUserData_alike ?_ _ _).mono (fun _ _ hsame => hsame)
    exact ⟨haddr, (hfill _).trans (hfill _).symm, ⟨h.hasHeader, h.isVoicemail⟩, rfl⟩

theorem pduStatusReport_alike (h : SameHeader dst dst') (src : Bytes) (len : ℤ) :
    Alike (fun msg msg' => SameFields msg msg' ∧ msg.payload.dcs = dst.payload.dcs ∧
      msg'.payload.dcs = dst'.payload.dcs) (pduStatusReport dst src len)
      (pduStatusReport dst' src len) := by
  unfold pduStatusReport
  apply Alike.guard one_ne_zero
  intro _
  apply Alike.bind
  intro reference _
  apply Alike.bind
  intro status _
  apply address_alike src len 3 2 2 13
  intro toa digits addr addr' haddr
  apply Alike.bind
  intro stamp hstamp
  obtain ⟨htype, htext⟩ := haddr
  have hnone (m : Memory) : ((m.store 0 [0]).slice 0 (smsDataBytelen status 0)) = [] := by
    have hzero : smsDataBytelen status 0 = 0 := by
      rw [smsDataBytelen]
      split_ifs
      · rfl
      · rfl
      · rfl
      · rfl
    rw [hzero]
    rfl
  exact .returns (fun _ => ⟨⟨htype, htext, stamp_stored _ _ hstamp, h.hasHeader, h.isVoicemail, rfl,
    rfl, (hnone _).trans (hnone _).symm⟩, rfl, rfl⟩)

def IsDeliver (src : Bytes) : Prop :=
  ∃ smsc ∈ src.head?, ∃ first ∈ src[1 + smsc.toNat]?, first &&& 3 = tpMtiDeliver

instance (src : Bytes) : Decidable (IsDeliver src) :=
  inferInstanceAs (Decidable (∃ smsc ∈ src.head?, ∃ first ∈ src[1 + smsc.toNat]?,
    first &&& 3 = tpMtiDeliver))

theorem isDeliver_iff {src : Bytes} {smsc first : UInt8} (hsmsc : src[0]? = some smsc)
    (hfirst : src[1 + smsc.toNat]? = some first) :
    IsDeliver src ↔ first &&& 3 = tpMtiDeliver := by
  rw [IsDeliver, List.head?_eq_getElem?, hsmsc]
  simp only [Option.mem_some_iff, exists_eq_left', hfirst]

/-- The same fields, but the decoded data coding scheme where the PDU is no SMS-DELIVER: that one is
then the one of before. -/
structure SameBesidesDcs (src : Bytes) (dst dst' msg msg' : GsmdSmsList) : Prop where
  fields : SameFields msg msg'
  decoded : IsDeliver src → msg.payload.dcs = msg'.payload.dcs
  stale : ¬ IsDeliver src → msg.payload.dcs = dst.payload.dcs ∧ msg'.payload.dcs = dst'.payload.dcs

theorem smsPduToMsg_alike (dst dst' : GsmdSmsList) (src : Bytes) (pdulen len : ℤ) :
    Alike (SameBesidesDcs src dst dst') (smsPduToMsg dst src pdulen len)
      (smsPduToMsg dst' src pdulen len) := by
  unfold smsPduToMsg
  apply Alike.guard one_ne_zero
  intro _
  apply Alike.bind
  intro smsc hsmsc
  apply Alike.guard one_ne_zero
  intro _
  apply Alike.bind
  intro first hfirst
  rw [List.getElem?_drop, Nat.add_zero] at hfirst
  have hdeliver := isDeliver_iff hsmsc hfirst
  have hother {msg msg' : GsmdSmsList} (hno : ¬ first &&& 3 = tpMtiDeliver)
      (h : SameFields msg msg' ∧ msg.payload.dcs = dst.payload.dcs ∧
        msg'.payload.dcs = dst'.payload.dcs) : SameBesidesDcs src dst dst' msg msg' :=
    ⟨h.1, fun hd => absurd (hdeliver.mp hd) hno, fun _ => h.2⟩
  apply Alike.ite
  · intro hd
    refine (pduDeliver_alike ?_ _ _).mono ?_
    · exact ⟨rfl, rfl⟩
    · exact fun msg msg' h => ⟨h.1, fun _ => h.2, fun hno => absurd (hdeliver.mpr hd) hno⟩
  · intro hno
    apply Alike.ite
    · intro _
      refine (pduSubmit_alike ?_ _ _ _).mono ?_
      · exact ⟨rfl, rfl⟩
      · exact fun msg msg' h => hother hno h
    · intro _
      apply Alike.ite
      · intro _
        refine (pduStatusReport_alike ?_ _ _).mono ?_
        · exact ⟨rfl, rfl⟩
        · exact fun msg msg' h => hother hno h
      · intro _
        exact .rejects one_ne_zero

def Accepts (src : Bytes) (pdulen : ℤ) : Prop :=
  (smsPduToMsg blankSmsList src pdulen src.length).map Prod.fst = some 0

instance (src : Bytes) (pdulen : ℤ) : Decidable (Accepts src pdulen) :=
  inferInstanceAs (Decidable (_ = _))

theorem accepts_iff (dst : GsmdSmsList) (src : Bytes) (pdulen : ℤ) :
    Accepts src pdulen ↔ ∃ msg, smsPduToMsg dst src pdulen src.length = some (0, msg) := by
  rw [Accepts, Option.map_eq_some_iff]
  constructor
  · rintro ⟨⟨ret, msg⟩, hr, rfl⟩
    obtain ⟨msg', hr', -⟩ := (smsPduToMsg_alike blankSmsList dst src pdulen src.length).accepts hr
    exact ⟨msg', hr'⟩
  · rintro ⟨msg, hr⟩
    obtain ⟨msg', hr', -⟩ := (smsPduToMsg_alike dst blankSmsList src pdulen src.length).accepts hr
    exact ⟨(0, msg'), hr', rfl⟩

def CarriesNothingStale (src : Bytes) (pdulen len : ℤ) : Prop :=
  ∀ dst dst' msg msg', smsPduToMsg dst src pdulen len = some (0, msg) →
    smsPduToMsg dst' src pdulen len = some (0, msg') →
    SameFields msg msg' ∧ msg.payload.dcs = msg'.payload.dcs

def withDcs (dst : GsmdSmsList) (dcs : GsmdSmsDatacodingscheme) : GsmdSmsList :=
  { dst with payload := { dst.payload with dcs := dcs } }

theorem carriesNothingStale_iff {src : Bytes} {pdulen len : ℤ}
    (h : smsPduToMsg dst src pdulen len = some (0, msg)) :
    CarriesNothingStale src pdulen len ↔ IsDeliver src := by
  have hfrom (d : GsmdSmsList) : ∃ m, smsPduToMsg d src pdulen len = some (0, m) ∧
      SameBesidesDcs src dst d msg m := (smsPduToMsg_alike dst d src pdulen len).accepts h
  constructor
  · intro hall
    by_contra hno
    obtain ⟨m, hm, hsame⟩ := hfrom (withDcs dst (smsPduDecodeDcs 0))
    obtain ⟨m', hm', hsame'⟩ := hfrom (withDcs dst (smsPduDecodeDcs 4))
    have hdcs := (hall _ _ _ _ hm hm').2
    rw [(hsame.stale hno).2, (hsame'.stale hno).2] at hdcs
    have hne : smsPduDecodeDcs 0 ≠ smsPduDecodeDcs 4 := by decide
    exact hne hdcs
  · intro hd d d' m m' hm hm'
    obtain ⟨m'', hm'', hsame⟩ := (smsPduToMsg_alike d d' src pdulen len).accepts hm
    obtain rfl : m'' = m' := (Prod.mk.inj (Option.some.inj (hm''.symm.trans hm'))).2
    exact ⟨hsame.fields, hsame.decoded hd⟩

def hiDeliver : Bytes :=
  [0x07, 0x91, 0x58, 0x92, 0x00, 0x00, 0x00, 0xf0, 0x04, 0x0b, 0x91, 0x58, 0x92, 0x21, 0x43, 0x65,
    0xf7, 0x00, 0x00, 0x70, 0x10, 0x12, 0x01, 0x00, 0x00, 0x00, 0x02, 0xc8, 0x34]

theorem carriesNothingStale_hi : CarriesNothingStale hiDeliver 21 29 := by
  obtain ⟨msg, hr⟩ := (accepts_iff blankSmsList hiDeliver 21).mp (by decide)
  exact (carriesNothingStale_iff hr).mpr (by decide)

def hiSubmit : Bytes :=
  [0x00, 0x01, 0x00, 0x0b, 0x91, 0x58, 0x92, 0x21, 0x43, 0x65, 0xf7, 0x00, 0x00, 0x02, 0xc8, 0x34]

theorem carriesNothingStale_submit :
    Accepts hiSubmit 15 ∧ ¬ CarriesNothingStale hiSubmit 15 16 := by
  have haccepts : Accepts hiSubmit 15 := by decide
  obtain ⟨msg, hr⟩ := (accepts_iff blankSmsList hiSubmit 15).mp haccepts
  refine ⟨haccepts, fun h => ?_⟩
  exact absurd ((carriesNothingStale_iff hr).mp h) (by decide)

end SystemTestSuite.GsmDaemon
