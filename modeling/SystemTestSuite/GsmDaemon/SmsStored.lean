import SystemTestSuite.GsmDaemon.SmsDeliver
import SystemTestSuite.GsmDaemon.SmsStale

namespace SystemTestSuite.GsmDaemon

open Library

variable {dst : GsmdSmsList} {scheme codingScheme u udl : UInt8} {body ud : Bytes}

def Compressed (scheme : UInt8) : Prop := scheme >>> 6 = 0 ∧ scheme &&& 0x20 ≠ 0

instance (scheme : UInt8) : Decidable (Compressed scheme) := inferInstanceAs (Decidable (_ ∧ _))

def CountsSeptets (scheme : UInt8) : Prop := tpAlphabet scheme = .default ∧ ¬ Compressed scheme

instance (scheme : UInt8) : Decidable (CountsSeptets scheme) := inferInstanceAs (Decidable (_ ∧ _))

def udOctets (scheme udl : UInt8) : ℕ :=
  if CountsSeptets scheme then (7 * udl.toNat + 7) / 8 else udl.toNat

/-- TP-VPF 0 is no TP-VP and 2 a relative one, the others are of seven octets. -/
def vpOctets (vpf : UInt8) : ℕ := if vpf = 0 then 0 else if vpf = 2 then 1 else 7

structure SubmitPdu where
  smsc : Bytes
  first : UInt8
  reference : UInt8
  digits : UInt8
  type : UInt8
  address : Bytes
  pid : UInt8
  scheme : UInt8
  vp : Bytes
  udl : UInt8
  ud : Bytes
  smsc_length : smsc.length < 256
  mti : first &&& 3 = tpMtiSubmit
  digits_le : digits.toNat ≤ 20
  address_length : address.length = (digits.toNat + 1) / 2
  accepted : (tpDcs scheme).isSome = true
  vp_length : vp.length = vpOctets ((first >>> 3) &&& 3)
  ud_length : ud.length = udOctets scheme udl
  ud_le : ud.length ≤ 140

namespace SubmitPdu

def tpdu (m : SubmitPdu) : Bytes :=
  m.first :: m.reference :: m.digits :: m.type ::
    (m.address ++ m.pid :: m.scheme :: (m.vp ++ m.udl :: m.ud))

def octets (m : SubmitPdu) : Bytes := UInt8.ofNat m.smsc.length :: (m.smsc ++ m.tpdu)

def TakesUserData (m : SubmitPdu) : Prop :=
  ∀ dst, ∃ msg, smsPduToMsg dst m.octets m.tpdu.length m.octets.length = some (0, msg) ∧
    msg.payload.length = m.udl ∧ msg.payload.userData = m.ud

end SubmitPdu

def ReadsOtherwise (scheme : UInt8) : Prop :=
  scheme >>> 4 = 0xe ∨ (scheme >>> 6 = 0 ∨ scheme >>> 4 = 0xc) ∧ scheme &&& 8 ≠ 0

def Miscounts (scheme : UInt8) : Prop :=
  Compressed scheme ∧ scheme &&& 0xc = 0 ∨ scheme >>> 4 = 0xc ∧ scheme &&& 0xc = 4

instance (scheme : UInt8) : Decidable (ReadsOtherwise scheme) :=
  inferInstanceAs (Decidable (_ ∨ _))

instance (scheme : UInt8) : Decidable (Miscounts scheme) := inferInstanceAs (Decidable (_ ∨ _))

def OctetsAgree (scheme udl : UInt8) : Prop :=
  (ReadsOtherwise scheme → udl = 0) ∧ (Miscounts scheme → udl.toNat ≤ 7)

def Counted (scheme codingScheme : UInt8) : Prop :=
  if codingScheme = alphabetDefault then
    ¬ ReadsOtherwise scheme ∧ (Miscounts scheme ↔ ¬ CountsSeptets scheme)
  else if codingScheme = alphabet8bit then
    ¬ ReadsOtherwise scheme ∧ (Miscounts scheme ↔ CountsSeptets scheme)
  else ReadsOtherwise scheme ∧ ¬ Miscounts scheme ∧
    (codingScheme = alphabetUcs2 → ¬ CountsSeptets scheme)

instance (scheme codingScheme : UInt8) : Decidable (Counted scheme codingScheme) := by
  unfold Counted
  infer_instance

theorem counted_table : ∀ n < 256,
    (tpDcs (UInt8.ofNat n)).all (fun codingScheme => Counted (UInt8.ofNat n) codingScheme) = true := by
  decide +kernel

theorem tpDcs_counted (h : tpDcs scheme = some codingScheme) : Counted scheme codingScheme := by
  have htable := counted_table scheme.toNat scheme.toNat_lt
  rw [UInt8.ofNat_toNat, h] at htable
  exact of_decide_eq_true htable

theorem smsDataBytelen_iff (h : Counted scheme codingScheme) :
    smsDataBytelen codingScheme udl = udOctets scheme udl ↔ OctetsAgree scheme udl := by
  have hzero : udl = 0 ↔ udl.toNat = 0 := UInt8.toNat_inj.symm
  rw [Counted] at h
  rw [smsDataBytelen, udOctets, OctetsAgree, hzero, Nat.shiftRight_eq_div_pow]
  split_ifs at h ⊢ with hdefault hseptets height hseptets hucs2 hseptets hseptets
  · have hmis : ¬ Miscounts scheme := fun hm => h.2.mp hm hseptets
    simp only [h.1, hmis, false_implies, and_self, iff_true]
    omega
  · simp only [h.1, h.2.mpr hseptets, false_implies, true_implies, true_and]
    omega
  · simp only [h.1, h.2.mpr hseptets, false_implies, true_implies, true_and]
    omega
  · have hmis : ¬ Miscounts scheme := fun hm => hseptets (h.2.mp hm)
    simp only [h.1, hmis, false_implies, and_self]
  · exact absurd hseptets (h.2.2 hucs2)
  · simp only [h.1, h.2.1, false_implies, true_implies, and_true]
    omega
  · simp only [h.1, h.2.1, false_implies, true_implies, and_true]
    omega
  · simp only [h.1, h.2.1, false_implies, true_implies, and_true]
    omega

theorem tpUserData_takes (d : GsmdSmsList) (hud : ud.length ≤ gsmdSmsDataMaxlen) :
    (∃ msg, tpUserData d (u :: body) (u :: body).length = some (0, msg) ∧
      msg.payload.length = udl ∧ msg.payload.userData = ud) ↔
    u = udl ∧ ud <+: body ∧ smsDataBytelen d.payload.codingScheme udl = ud.length := by
  constructor
  · rintro ⟨msg, hmsg, hlength, hdata⟩
    simp only [tpUserData, List.getElem?_cons_zero, Option.bind_eq_bind, Option.bind_some] at hmsg
    split_ifs at hmsg with hbad
    · cases hmsg
    obtain ⟨data, hread, hmsg⟩ := Option.bind_eq_some_iff.mp hmsg
    obtain rfl := (Prod.mk.inj (Option.some.inj hmsg)).2
    obtain rfl : u = udl := hlength
    have hlen := readOctets_length hread
    have hstored : ((d.payload.data.store 0 data).store
        (smsDataBytelen d.payload.codingScheme u) [0]).slice 0
          (smsDataBytelen d.payload.codingScheme u) = data := by
      have hend := Memory.slice_store_end d.payload.data 0 data [0]
      rwa [Nat.zero_add, hlen] at hend
    obtain rfl : data = ud := hstored.symm.trans hdata
    refine ⟨rfl, ?_, hlen.symm⟩
    rw [readOctets] at hread
    split_ifs at hread
    obtain rfl := Option.some.inj hread
    exact List.take_prefix _ _
  · rintro ⟨rfl, ⟨more, rfl⟩, hlen⟩
    have hread : readOctets (u :: (ud ++ more)) 1 ud.length = some ud := by
      simp [readOctets, Nat.add_comm]
    have hok : ¬ (((u :: (ud ++ more)).length : ℤ) <
        1 + smsDataBytelen d.payload.codingScheme u ∨
        smsDataBytelen d.payload.codingScheme u > gsmdSmsDataMaxlen) := by
      rw [hlen, List.length_cons, List.length_append]
      omega
    have hdone : tpUserData d (u :: (ud ++ more)) (u :: (ud ++ more)).length =
        some (0, { d with payload := { d.payload with
          length := u
          data := (d.payload.data.store 0 ud).store ud.length [0] } }) := by
      simp only [tpUserData, List.getElem?_cons_zero, Option.bind_eq_bind, Option.bind_some,
        if_neg hok]
      rw [hlen, hread]
      rfl
    refine ⟨_, hdone, rfl, ?_⟩
    change ((d.payload.data.store 0 ud).store ud.length [0]).slice 0
      (smsDataBytelen d.payload.codingScheme u) = ud
    rw [hlen]
    exact (Memory.slice_store_before _ _ (by omega)).trans (Memory.slice_store_same _ _ _)

namespace SubmitPdu

/-- The octets behind the first one of TP-VP begin with TP-UDL and TP-UD. -/
def SkipsVp (m : SubmitPdu) : Prop := m.udl :: m.ud <+: m.vp.drop 1 ++ m.udl :: m.ud

/-- The octet behind TP-DCS is skipped wherever there is a TP-VP. -/
theorem skipped_eq (m : SubmitPdu) :
    (if (m.first >>> 3) &&& 3 ≠ 0 then (m.vp ++ m.udl :: m.ud).drop 1 else m.vp ++ m.udl :: m.ud) =
      m.vp.drop 1 ++ m.udl :: m.ud := by
  have hvp := m.vp_length
  rw [vpOctets] at hvp
  by_cases hvpf : (m.first >>> 3) &&& 3 = 0
  · rw [if_pos hvpf, List.length_eq_zero_iff] at hvp
    rw [if_neg (not_not_intro hvpf), hvp]
    rfl
  · have hpos : 1 ≤ m.vp.length := by
      rw [hvp, if_neg hvpf]
      split_ifs
      · exact le_refl _
      · omega
    rw [if_pos hvpf, List.drop_append_of_le_length hpos]

theorem decode_eq (dst : GsmdSmsList) (m : SubmitPdu) : ∃ d d' : GsmdSmsList,
    tpDcs m.scheme = some d.payload.codingScheme ∧
    smsPduToMsg dst m.octets m.tpdu.length m.octets.length =
      if m.vp = [] ∧ m.ud = [] then some (1, d')
      else tpUserData d (m.vp.drop 1 ++ m.udl :: m.ud) (m.vp.drop 1 ++ m.udl :: m.ud).length := by
  obtain ⟨codingScheme, hdcs⟩ := Option.isSome_iff_exists.mp m.accepted
  have hsmsc : (UInt8.ofNat m.smsc.length).toNat = m.smsc.length := by
    rw [UInt8.toNat_ofNat']
    exact Nat.mod_eq_of_lt m.smsc_length
  have hdigits := m.digits_le
  obtain ⟨number, -, haddr⟩ := @smsAddress2ascii_reads (beforeType dst m.first).addr m.digits m.type
    (m.address ++ m.pid :: m.scheme :: (m.vp ++ m.udl :: m.ud))
    (by rw [gsmdAddrMaxlen]; omega)
    (by rw [List.length_append, m.address_length, List.length_cons]; omega)
  have hlen : m.octets.length = 1 + m.smsc.length + m.tpdu.length := by
    rw [octets, List.length_cons, List.length_append]
    omega
  have hud := m.ud_le
  have hvp : m.vp.length ≤ 7 := by
    rw [m.vp_length, vpOctets]
    split_ifs
    · omega
    · omega
    · exact le_refl _
  have htpdu : m.tpdu.length = 7 + (m.digits.toNat + 1) / 2 + m.vp.length + m.ud.length := by
    simp only [tpdu, List.length_cons, List.length_append, m.address_length]
    omega
  have hrest : (m.smsc ++ m.tpdu).drop (UInt8.ofNat m.smsc.length).toNat = m.tpdu := by
    rw [hsmsc, List.drop_left]
  have hpass := @smsPduToMsg_passed dst (UInt8.ofNat m.smsc.length) m.first (m.smsc ++ m.tpdu)
    _ m.tpdu.length (by omega) (by omega) (Or.inl (by rw [hsmsc, ← octets, hlen]; omega)) hrest
  have hsubmit := @pduSubmit_eq (beforeType dst m.first) m.first m.reference m.digits m.type m.pid
    m.scheme ((m.first >>> 3) &&& 3) m.address (m.vp ++ m.udl :: m.ud) _ haddr m.address_length
  have hshort : (m.vp ++ m.udl :: m.ud).length < 2 ↔ m.vp = [] ∧ m.ud = [] := by
    rw [List.length_append, List.length_cons, ← List.length_eq_zero_iff, ← List.length_eq_zero_iff]
    omega
  have htype : pduOfType (beforeType dst m.first) m.first m.tpdu m.tpdu.length =
      pduSubmit (beforeType dst m.first) ((m.first >>> 3) &&& 3) m.tpdu m.tpdu.length := by
    rw [pduOfType, if_neg (by rw [m.mti]; decide), if_pos m.mti]
  rw [hdcs, skipped_eq, if_congr hshort rfl rfl] at hsubmit
  exact ⟨_, _, hdcs, hpass.trans (htype.trans hsubmit)⟩

theorem takes_iff (dst : GsmdSmsList) (m : SubmitPdu) :
    (∃ msg, smsPduToMsg dst m.octets m.tpdu.length m.octets.length = some (0, msg) ∧
      msg.payload.length = m.udl ∧ msg.payload.userData = m.ud) ↔
    (m.vp ≠ [] ∨ m.ud ≠ []) ∧ OctetsAgree m.scheme m.udl ∧ SkipsVp m := by
  obtain ⟨d, d', hdcs, hread⟩ := decode_eq dst m
  have hroom : m.ud.length ≤ gsmdSmsDataMaxlen := m.ud_le.trans (by decide)
  have hcounted := @smsDataBytelen_iff m.scheme _ m.udl (tpDcs_counted hdcs)
  rw [← m.ud_length] at hcounted
  rw [hread]
  by_cases hempty : m.vp = [] ∧ m.ud = []
  · rw [if_pos hempty]
    refine iff_of_false ?_ (fun h => h.1.elim (absurd hempty.1) (absurd hempty.2))
    rintro ⟨msg, hmsg, -⟩
    cases hmsg
  · have hsome : m.vp ≠ [] ∨ m.ud ≠ [] := not_and_or.mp hempty
    rw [if_neg hempty, and_iff_right hsome, ← hcounted, SkipsVp]
    obtain ⟨u, body, hbody⟩ : ∃ u body, m.vp.drop 1 ++ m.udl :: m.ud = u :: body :=
      List.exists_cons_of_ne_nil (by simp)
    rw [hbody, tpUserData_takes d hroom, List.cons_prefix_cons]
    constructor
    · rintro ⟨rfl, hprefix, hlen⟩
      exact ⟨hlen, rfl, hprefix⟩
    · rintro ⟨hlen, rfl, hprefix⟩
      exact ⟨rfl, hprefix, hlen⟩

/-- The user data is taken from its place if and only if there is some or a TP-VP, the coding scheme
gives TP-UD as many octets as it has, and what stands behind the first octet of TP-VP begins like
TP-UDL and TP-UD. -/
theorem takesUserData_iff (m : SubmitPdu) : TakesUserData m ↔
    (m.vp ≠ [] ∨ m.ud ≠ []) ∧ OctetsAgree m.scheme m.udl ∧ SkipsVp m := by
  constructor
  · exact fun h => (takes_iff blankSmsList m).mp (h blankSmsList)
  · exact fun h dst => (takes_iff dst m).mpr h

def absoluteSample : SubmitPdu where
  smsc := []
  first := 0x19
  reference := 0
  digits := 11
  type := 0x91
  address := exampleAddress
  pid := 0
  scheme := 0
  vp := exampleStamp
  udl := 2
  ud := [0xc8, 0x34]
  smsc_length := noSmsc_length
  mti := by decide
  digits_le := exampleAddress_digits
  address_length := exampleAddress_length
  accepted := by decide
  vp_length := by decide
  ud_length := by decide
  ud_le := by decide

/-- A message that is valid up to an absolute time. -/
theorem absoluteSample_not_taken : ¬ ∀ m, TakesUserData m := by
  intro hall
  have hskips := ((takesUserData_iff absoluteSample).mp (hall absoluteSample)).2.2
  have hno : ¬ ([2, 0xc8, 0x34] : Bytes) <+:
      [0x10, 0x12, 0x01, 0x00, 0x00, 0x00, 2, 0xc8, 0x34] := by decide
  exact hno hskips

end SubmitPdu

end SystemTestSuite.GsmDaemon
